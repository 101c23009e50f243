import Chip8.Proofs.CallStack
import Chip8.Proofs.Dispatch

namespace Chip8

/-!
# What a step can change

Every word writes few parts of the machine, and which ones can be told from its digits.  A step
that looks at the keys, or that finds the machine halted, does still less.

* `Part`, `Part.Same` — the parts of a machine that instructions write.
* `Part.WrittenBy` — whether a word writes a part.
* `Machine.same_or_writtenBy_execute`, `Machine.same_or_writtenBy_step` — an instruction leaves
  alone what its word does not write, and so does a step.
* `Machine.holdsDecimal_execute` — what the instruction that writes decimal digits writes.
* `Machine.step_of_waiting` — a step that looks at the keys.
* `step_changes_what_its_word_writes` — all of this of one step, whatever the machine is doing.
-/

/-- A part of a machine that some instruction writes. -/
inductive Part where
  /-- A cell of the memory. -/
  | cell (a : Address)
  /-- The display. -/
  | display
  /-- How many slots of the call stack are taken. -/
  | depth
  /-- A slot of the call stack. -/
  | slot (k : Fin 16)
  /-- The delay timer. -/
  | delay
  /-- The sound timer. -/
  | sound
  /-- The index register. -/
  | index
  /-- The source of random bytes. -/
  | random
  /-- One of the other registers. -/
  | register (r : Register)

namespace Part

/-- A part is the same in two machines. -/
def Same (m m' : Machine) : Part → Prop
  | cell a => m'.memory.read a = m.memory.read a
  | display => m'.display = m.display
  | depth => m'.calls.depth = m.calls.depth
  | slot k => m'.calls.slot k = m.calls.slot k
  | delay => m'.delay = m.delay
  | sound => m'.sound = m.sound
  | index => m'.index = m.index
  | random => m'.random = m.random
  | register r => m'.reg r = m.reg r

/-- A word writes a part of a machine. -/
def WrittenBy (m : Machine) (w : UInt16) (p : Part) : Prop :=
  let group := w.toNat / 0x1000
  let low := w.toNat % 0x100
  let last := w.toNat % 0x10
  let x := registerX w
  match p with
  | cell a => group = 0xF ∧
      (low = 0x33 ∧ (∃ k < 3, a = Address.wrap (m.index.toNat + k)) ∨
        low = 0x55 ∧ ∃ k ≤ x.val, a = Address.wrap (m.index.toNat + k))
  | display => w = 0x00E0 ∨ group = 0xD
  | depth => w = 0x00EE ∨ group = 0x2
  | slot k => group = 0x2 ∧ k.val = m.calls.depth
  | delay => group = 0xF ∧ low = 0x15
  | sound => group = 0xF ∧ low = 0x18
  | index => group = 0xA ∨ group = 0xF ∧
      (low = 0x1E ∨ low = 0x29 ∨ m.dialect.has .transfer = true ∧ (low = 0x55 ∨ low = 0x65))
  | random => group = 0xC
  | register r =>
      r = x ∧ (group = 0x6 ∨ group = 0x7 ∨ group = 0x8 ∨ group = 0xC ∨
        group = 0xF ∧ low = 0x07) ∨
      r ≤ x ∧ group = 0xF ∧ low = 0x65 ∨
      r = Register.flag ∧ (group = 0xD ∨ group = 0x8 ∧ (4 ≤ last ∧ last ≤ 7 ∨ last = 0xE))

instance (m : Machine) (w : UInt16) (p : Part) : Decidable (p.WrittenBy m w) :=
  match p with
  | cell _ | slot _ | delay | sound => inferInstanceAs (Decidable (_ ∧ _))
  | display | depth | index | register _ => inferInstanceAs (Decidable (_ ∨ _))
  | random => inferInstanceAs (Decidable (_ = _))

end Part

/-! ### Instructions and their words -/

/-- The decimal digits of a number lie in three cells of memory. -/
def Bank.HoldsDecimal (memory : Memory) (place value : Nat) : Prop :=
  (∀ k < 3, (memory.read (Address.wrap (place + k))).toNat ≤ 9) ∧
    (memory.read (Address.wrap place)).toNat * 100 +
      (memory.read (Address.wrap (place + 1))).toNat * 10 +
        (memory.read (Address.wrap (place + 2))).toNat = value

namespace Machine

variable (m : Machine) (i : Instruction)

/-- An instruction leaves the cells alone that its word does not write. -/
theorem read_execute_or (a : Address) :
    (m.execute i).memory.read a = m.memory.read a ∨ (Part.cell a).WrittenBy m i.encode := by
  unfold Part.WrittenBy
  rw [memory_execute]
  cases i with
  | decimal x =>
    refine (m.memory.read_writeFrom_or ..).imp_right fun ⟨k, inside, here⟩ => ?_
    have low : (Instruction.decimal x).encode.toNat % 0x100 = 0x33 := mod_wordOfByte (by decide) ..
    exact ⟨group_wordOfByte (by decide) .., .inl ⟨low, k, inside, here⟩⟩
  | store x =>
    refine (m.memory.read_writeFrom_or ..).imp_right fun ⟨k, inside, here⟩ => ?_
    have low : (Instruction.store x).encode.toNat % 0x100 = 0x55 := mod_wordOfByte (by decide) ..
    have named : k ≤ (registerX (Instruction.store x).encode).val := by
      rw [Instruction.encode, registerX_wordOfByte (by decide)]
      simpa [registersUpTo, Nat.lt_succ_iff] using inside
    exact ⟨group_wordOfByte (by decide) .., .inr ⟨low, k, named, here⟩⟩
  | _ => exact .inl rfl

/-- The index register stays where it is unless the word moves it. -/
theorem index_execute_or :
    (m.execute i).index = m.index ∨ Part.index.WrittenBy m i.encode := by
  unfold Part.WrittenBy
  cases i with
  | setIndex target => exact .inr (.inl (group_wordOfTarget (by decide) ..))
  | addIndex | glyph =>
    refine .inr (.inr ⟨group_wordOfByte (by decide) .., ?_⟩)
    simp [Instruction.encode, mod_wordOfByte]
  | store | load =>
    by_cases moves : m.dialect.has .transfer
    · refine .inr (.inr ⟨group_wordOfByte (by decide) .., ?_⟩)
      simp [Instruction.encode, mod_wordOfByte, moves]
    · exact .inl (if_neg moves)
  | _ => exact .inl rfl

/-- A register keeps its byte unless the word names it, loads it with the ones before it, or has a
flag for it. -/
theorem reg_execute_or (r : Register) :
    (m.execute i).reg r = m.reg r ∨ (Part.register r).WrittenBy m i.encode := by
  unfold Part.WrittenBy
  cases i with
  | setByte x | addByte x | random x | readDelay x =>
    refine (m.registers.read_write_or x r _).imp_right fun named => .inl ?_
    simp [Instruction.encode, registerX_wordOfByte, group_wordOfByte, mod_wordOfByte, named]
  | copy x | or x | and x | xor x =>
    refine (m.registers.read_write_or x r _).imp_right fun named => .inl ?_
    simp [Instruction.encode, registerX_wordOfPair, group_wordOfPair, named]
  | add x | sub x | shiftRight x | subFrom x | shiftLeft x =>
    -- the flag is written after the result, so it is looked at first
    rcases Bank.read_write_or _ Register.flag r _ with kept | isFlag
    · refine (m.registers.read_write_or x r _).imp kept.trans fun named => .inl ?_
      simp [Instruction.encode, registerX_wordOfPair, group_wordOfPair, named]
    · refine .inr (.inr (.inr ⟨isFlag, .inr ⟨group_wordOfPair (by decide) .., ?_⟩⟩))
      rw [Instruction.encode, mod_wordOfPair (by decide)]
      decide
  | draw x y rows =>
    refine (m.registers.read_write_or Register.flag r _).imp_right fun isFlag => ?_
    exact .inr (.inr ⟨isFlag, .inl (group_wordOfPair (by decide) ..)⟩)
  | load x =>
    rcases m.registers.read_writeFrom_or 0 (m.bytesUpTo x) r with kept | ⟨k, inside, here⟩
    · exact .inl kept
    · have upTo : r ≤ x := by
        rw [here, Fin.le_def, Fin.val_ofNat]
        simp only [bytesUpTo, Bank.length_readFrom] at inside
        omega
      refine .inr (.inr (.inl ?_))
      simp [Instruction.encode, registerX_wordOfByte, group_wordOfByte, mod_wordOfByte, upTo]
  | _ => exact .inl rfl

/-- An instruction leaves a part of the machine alone that its word does not write. -/
theorem same_or_writtenBy_execute (p : Part) :
    p.Same m (m.execute i) ∨ p.WrittenBy m i.encode := by
  unfold Part.WrittenBy Part.Same
  cases p with
  | cell a => exact m.read_execute_or i a
  | index => exact m.index_execute_or i
  | register r => exact m.reg_execute_or i r
  | display =>
    rw [display_execute]
    cases i with
    | clear => exact .inr (.inl rfl)
    | draw x y rows => exact .inr (.inr (group_wordOfPair (by decide) ..))
    | _ => exact .inl rfl
  | depth =>
    rw [calls_execute]
    cases i with
    | ret => exact .inr (.inl rfl)
    | call target => exact .inr (.inr (group_wordOfTarget (by decide) ..))
    | _ => exact .inl rfl
  | slot k =>
    rw [calls_execute]
    cases i with
    | call target =>
      by_cases next : k.val = m.calls.depth
      · exact .inr ⟨group_wordOfTarget (by decide) .., next⟩
      · exact .inl (m.calls.slot_push_of_ne _ next)
    | _ => exact .inl rfl
  | delay =>
    cases i with
    | setDelay x => exact .inr ⟨group_wordOfByte (by decide) .., mod_wordOfByte (by decide) ..⟩
    | _ => exact .inl rfl
  | sound =>
    cases i with
    | setSound x => exact .inr ⟨group_wordOfByte (by decide) .., mod_wordOfByte (by decide) ..⟩
    | _ => exact .inl rfl
  | random =>
    cases i with
    | random x mask => exact .inr (group_wordOfByte (by decide) ..)
    | _ => exact .inl rfl

/-- The decimal digits of a byte lie in memory once they have been written there. -/
theorem holdsDecimal_execute (x : Register) :
    (m.execute (.decimal x)).memory.HoldsDecimal m.index.toNat (m.reg x).toNat := by
  have bound := (m.reg x).toNat_lt
  let digits := decimalDigits (m.reg x)
  have cell (k : Nat) (inside : k < digits.length) :
      (m.execute (.decimal x)).memory.read (Address.wrap (m.index.toNat + k)) = digits[k] :=
    m.memory.read_writeFrom_of_lt m.index.toNat digits (show 3 ≤ 4096 by decide) k inside
  have hundreds := congrArg UInt8.toNat (cell 0 (show 0 < 3 by decide))
  have tens := congrArg UInt8.toNat (cell 1 (show 1 < 3 by decide))
  have ones := congrArg UInt8.toNat (cell 2 (show 2 < 3 by decide))
  simp only [digits, decimalDigits, List.getElem_cons_zero, List.getElem_cons_succ,
    UInt8.toNat_div, UInt8.toNat_mod, UInt8.reduceToNat] at hundreds tens ones
  constructor
  · intro k inside
    obtain rfl | rfl | rfl : k = 0 ∨ k = 1 ∨ k = 2 := by omega
    all_goals omega
  · rw [Nat.add_zero] at hundreds
    rw [hundreds, tens, ones]
    omega

/-! ### Steps -/

variable {m : Machine}

/-- A part that a step of a running machine changes is one that its word writes, and then the step
reports no fault. -/
theorem same_or_writtenBy_step (running : m.activity = .running) (p : Part) :
    p.Same m m.step.machine ∨ m.step.fault? = none ∧ p.WrittenBy m (m.fetch m.pc) := by
  cases refused : m.refusal? (decode (m.fetch m.pc)) with
  | some kind =>
    -- a machine that halts changes its run state, which is none of the parts
    rw [step_of_running running, dispatch_of_refused refused]
    cases p <;> exact .inl rfl
  | none =>
    obtain ⟨timeline, after⟩ := exists_timeline_step running rfl refused
    have change := m.same_or_writtenBy_execute (decode (m.fetch m.pc)) p
    rw [encode_decode] at change
    rw [after]
    refine change.imp (fun same => ?_) fun writes => ⟨rfl, writes⟩
    cases p <;> exact same

/-- A step of a machine that waits for a key takes note of the keys, or it puts the key that was
pressed into the register and goes on. -/
theorem step_of_waiting {register : Register} {seen : Keypad}
    (waiting : m.activity = .awaitingKey register seen) :
    m.step.machine = { m with activity := .awaitingKey register m.keys } ∨
      ∃ key : Key, m.step.machine =
        { m with
          registers := m.registers.write register (UInt8.ofNat key.val)
          pc := addressAfter m.pc 2
          activity := .running } := by
  rw [step_of_awaitingKey waiting, poll]
  cases m.keys.firstPressed? seen with
  | none => exact .inl rfl
  | some key => exact .inr ⟨key, rfl⟩

end Machine

/-- A step of a running machine changes only what its word writes, and nothing of that if it reports
a fault.  What a word writes is exact where it is the same for all programs: a blank display, and
decimal digits.  A step that looks at the keys changes what is remembered of them, or else the
register that waits for one, the program counter and the run state; a halted machine stays as it is.
No step touches the keys, the dialect, the bound of the timeline or the count of frames. -/
theorem step_changes_what_its_word_writes (m : Machine) :
    let w := m.fetch m.pc
    let n := m.step.machine
    (m.activity = .running →
      (∀ p : Part, p.Same m n ∨ m.step.fault? = none ∧ p.WrittenBy m w) ∧
        (w = 0x00E0 → n.display = .blank) ∧
        (w.toNat / 0x1000 = 0xF → w.toNat % 0x100 = 0x33 →
          n.memory.HoldsDecimal m.index.toNat (m.reg (registerX w)).toNat)) ∧
      (∀ register seen, m.activity = .awaitingKey register seen →
        n = { m with activity := .awaitingKey register m.keys } ∨
          ∃ key : Key, n =
            { m with
              registers := m.registers.write register (UInt8.ofNat key.val)
              pc := addressAfter m.pc 2
              activity := .running }) ∧
      (∀ fault, m.activity = .halted fault → n = m) ∧
      n.keys = m.keys ∧ n.dialect = m.dialect ∧ n.traceLimit = m.traceLimit ∧
        n.frames = m.frames := by
  intro w n
  refine ⟨fun running => ⟨Machine.same_or_writtenBy_step running, ?_, ?_⟩,
    fun register seen => Machine.step_of_waiting, ?_, m.settings_step⟩
  · intro word
    have decoded := (decode_eq_clear_iff w).mpr word
    obtain ⟨timeline, after⟩ := Machine.exists_timeline_step running decoded rfl
    simp only [n, after]
    rfl
  · intro group low
    have number : w.toNat = (wordOfByte 0xF (registerX w) 0x33).toNat := by
      have byte : (0x33 : UInt8).toNat = 0x33 := rfl
      rw [toNat_wordOfByte (by decide), val_registerX, byte]
      omega
    have decoded : decode w = .decimal (registerX w) := decode_of_toNat_eq nofun nofun number
    obtain ⟨timeline, after⟩ := Machine.exists_timeline_step running decoded rfl
    simp only [n, after]
    exact m.holdsDecimal_execute (registerX w)
  · intro fault halted
    simp only [n, Machine.step_of_halted halted]

/-- A program writes the digits of a byte to the last two cells and the first one.  The cell after
them and all the registers stay as they are. -/
theorem step_changes_what_its_word_writes_last_cells :
    let m := (Machine.powerOn {} 0 default).after
      [.load [0x60, 0x9C, 0xAF, 0xFE, 0xF0, 0x33], .step, .step]
    let n := m.step.machine
    n.memory.HoldsDecimal 0xFFE 156 ∧ n.memory.read 0x001 = m.memory.read 0x001 ∧
      ∀ r, n.reg r = m.reg r := by
  intro m n
  have facts : m.activity = .running ∧ (m.fetch m.pc).toNat = 0xF033 ∧
      m.index.toNat = 0xFFE ∧ (m.reg (registerX (m.fetch m.pc))).toNat = 156 ∧
      ¬ (Part.cell 0x001).WrittenBy m (m.fetch m.pc) ∧
      ∀ r, ¬ (Part.register r).WrittenBy m (m.fetch m.pc) := by
    decide +kernel
  obtain ⟨running, word, place, value, cell, registers⟩ := facts
  obtain ⟨effects, -⟩ := step_changes_what_its_word_writes m
  obtain ⟨parts, -, digits⟩ := effects running
  refine ⟨?_, ?_, fun r => ?_⟩
  · rw [← place, ← value]
    exact digits (by rw [word]) (by rw [word])
  · exact (parts (.cell 0x001)).resolve_right fun ⟨_, writes⟩ => cell writes
  · exact (parts (.register r)).resolve_right fun ⟨_, writes⟩ => registers r writes

end Chip8
