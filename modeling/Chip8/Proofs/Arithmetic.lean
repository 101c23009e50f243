import Chip8.Proofs.Dispatch

namespace Chip8

/-!
# Arithmetic on registers

An operation on two registers puts its result into the first one, and some of them a flag into the
flag register.  Both are computed from what the registers held before the instruction, and the flag
is written last, so it does not matter which of the three registers are the same.

* `ByteOperation` — the operations on two registers, with their results and their flags.
* `Machine.Computes` — what an operation leaves behind in the registers, and that it leaves
  everything else alone.
* `Machine.computes_of_setReg`, `Machine.computes_of_setRegAndFlag` — steps that put one byte or two
  into registers.
* `arithmetic_under_aliasing` — all operations, on all registers.
-/

/-! ### Operations -/

/-- The operations on two registers. -/
inductive ByteOperation where
  | copy
  | or
  | and
  | xor
  | add
  | sub
  | shiftRight
  | subFrom
  | shiftLeft
  deriving DecidableEq

namespace ByteOperation

/-- The last digit of the words that an operation is written as. -/
def digit : ByteOperation → Fin 16
  | .copy => 0x0
  | .or => 0x1
  | .and => 0x2
  | .xor => 0x3
  | .add => 0x4
  | .sub => 0x5
  | .shiftRight => 0x6
  | .subFrom => 0x7
  | .shiftLeft => 0xE

/-- The instruction that carries an operation out on two registers. -/
def instruction (x y : Register) : ByteOperation → Instruction
  | .copy => .copy x y
  | .or => .or x y
  | .and => .and x y
  | .xor => .xor x y
  | .add => .add x y
  | .sub => .sub x y
  | .shiftRight => .shiftRight x y
  | .subFrom => .subFrom x y
  | .shiftLeft => .shiftLeft x y

/-- The result of an operation on the bytes `a` and `b`; a shift is one of the byte `s`. -/
def result (a b s : Nat) : ByteOperation → Nat
  | .copy => b
  | .or => a ||| b
  | .and => a &&& b
  | .xor => a ^^^ b
  | .add => (a + b) % 0x100
  | .sub => (0x100 + a - b) % 0x100
  | .shiftRight => s / 2
  | .subFrom => (0x100 + b - a) % 0x100
  | .shiftLeft => (2 * s) % 0x100

/-- The flag of an operation, if it has one: a carry, that nothing was borrowed, or the bit that is
shifted out. -/
def flag? (a b s : Nat) : ByteOperation → Option Nat
  | .copy | .or | .and | .xor => none
  | .add => some (if 0xFF < a + b then 1 else 0)
  | .sub => some (if b ≤ a then 1 else 0)
  | .shiftRight => some (s % 2)
  | .subFrom => some (if a ≤ b then 1 else 0)
  | .shiftLeft => some (s / 0x80)

/-- The words of an operation are told by its digit. -/
theorem decode_of_toNat_eq_instruction {w : UInt16} {x y : Register} {o : ByteOperation}
    (h : w.toNat = 0x8000 + x.val * 0x100 + y.val * 0x10 + o.digit.val) :
    decode w = o.instruction x y := by
  have number : w.toNat = (wordOfPair 0x8 x y o.digit).toNat := by
    rw [h, toNat_wordOfPair (by decide)]
  cases o
  all_goals exact decode_of_toNat_eq nofun nofun number

end ByteOperation

/-! ### Steps that compute -/

namespace Machine

theorem toNat_flagByte (p : Prop) [Decidable p] :
    (flagByte (decide p)).toNat = if p then 1 else 0 := by
  by_cases p <;> simp [flagByte, *]

/-- A step puts a result into a register and a flag, if there is one, into the flag register; the
flag stays even if both are the same register.  Beside the registers only the program counter and
the record of the instruction change. -/
structure Computes (m : Machine) (x : Register) (result : Nat) (flag? : Option Nat) : Prop where
  /-- The step reports no fault. -/
  calm : m.step.fault? = none
  /-- The flag, if there is one, is in the flag register. -/
  flag : ∀ flag ∈ flag?, (m.step.machine.reg Register.flag).toNat = flag
  /-- The result is in its register, unless the flag is there. -/
  result : x ≠ Register.flag ∨ flag? = none → (m.step.machine.reg x).toNat = result
  /-- The other registers keep their bytes. -/
  others : ∀ r, r ≠ x → r ≠ Register.flag ∨ flag? = none → m.step.machine.reg r = m.reg r
  /-- The rest of the machine goes on with the next instruction and counts this one. -/
  rest : ∃ registers timeline, m.step.machine =
    { m with
      registers := registers
      pc := addressAfter m.pc 2
      cycles := m.cycles + 1
      timeline := timeline }

variable {m : Machine} {x : Register} {i : Instruction} {value flag : UInt8} {result bit : Nat}

/-- An instruction that puts a byte into a register computes that byte and no flag. -/
theorem computes_of_setReg (running : m.activity = .running) (word : decode (m.fetch m.pc) = i)
    (accepted : m.refusal? i = none) (effect : m.execute i = m.next.setReg x value)
    (put : value.toNat = result) : m.Computes x result none := by
  obtain ⟨timeline, after⟩ := exists_timeline_step running word accepted
  rw [effect] at after
  constructor
  case calm => rw [after]
  case flag => exact nofun
  case result =>
    intro _
    rw [after, ← put]
    exact congrArg UInt8.toNat (m.next.reg_setReg_self x value)
  case others =>
    intro r other _
    rw [after]
    exact m.next.reg_setReg_of_ne other.symm value
  case rest => exact ⟨_, timeline, by rw [after]; rfl⟩

/-- An instruction that puts a byte into a register and another one into the flag register computes
the first one, with the second one as its flag. -/
theorem computes_of_setRegAndFlag (running : m.activity = .running)
    (word : decode (m.fetch m.pc) = i) (accepted : m.refusal? i = none)
    (effect : m.execute i = m.next.setRegAndFlag x value flag) (put : value.toNat = result)
    (told : flag.toNat = bit) : m.Computes x result (some bit) := by
  obtain ⟨timeline, after⟩ := exists_timeline_step running word accepted
  rw [effect] at after
  -- the flag is written over the result, so a register keeps the result only if it is not the flag
  have written (r : Register) : m.step.machine.reg r =
      ((m.registers.write x value).write Register.flag flag).read r := by
    rw [after]
    rfl
  constructor
  case calm => rw [after]
  case flag =>
    rintro _ ⟨⟩
    rw [written, Bank.read_write_self, told]
  case result =>
    rintro (apart | none)
    · rw [written, Bank.read_write_of_ne _ apart.symm, Bank.read_write_self, put]
    · cases none
  case others =>
    rintro r other (apart | none)
    · rw [written, Bank.read_write_of_ne _ apart.symm, Bank.read_write_of_ne _ other.symm]
      rfl
    · cases none
  case rest => exact ⟨_, timeline, by rw [after]; rfl⟩

/-- An operation computes its result and its flag from the bytes in its registers. -/
theorem computes_of_operation (running : m.activity = .running) (o : ByteOperation)
    (y : Register) (word : decode (m.fetch m.pc) = o.instruction x y) :
    let a := (m.reg x).toNat
    let b := (m.reg y).toNat
    let s := if m.dialect.has .shift then b else a
    m.Computes x (o.result a b s) (o.flag? a b s) := by
  intro a b s
  have bound : a < 0x100 ∧ b < 0x100 := ⟨(m.reg x).toNat_lt, (m.reg y).toNat_lt⟩
  have shifted : (m.shiftOperand x y).toNat = s := apply_ite UInt8.toNat _ _ _
  cases o with
  | copy => exact computes_of_setReg running word rfl rfl rfl
  | or => exact computes_of_setReg running word rfl rfl (UInt8.toNat_or ..)
  | and => exact computes_of_setReg running word rfl rfl (UInt8.toNat_and ..)
  | xor => exact computes_of_setReg running word rfl rfl (UInt8.toNat_xor ..)
  | add =>
    exact computes_of_setRegAndFlag running word rfl rfl (UInt8.toNat_add ..) (toNat_flagByte _)
  | sub =>
    have difference : (m.reg x - m.reg y).toNat = (0x100 + a - b) % 0x100 := by
      rw [UInt8.toNat_sub]
      omega
    exact computes_of_setRegAndFlag running word rfl rfl difference (toNat_flagByte _)
  | subFrom =>
    have difference : (m.reg y - m.reg x).toNat = (0x100 + b - a) % 0x100 := by
      rw [UInt8.toNat_sub]
      omega
    exact computes_of_setRegAndFlag running word rfl rfl difference (toNat_flagByte _)
  | shiftRight =>
    have half : (m.shiftOperand x y / 2).toNat = s / 2 := by rw [UInt8.toNat_div, shifted]; rfl
    have low : (m.shiftOperand x y % 2).toNat = s % 2 := by rw [UInt8.toNat_mod, shifted]; rfl
    exact computes_of_setRegAndFlag running word rfl rfl half low
  | shiftLeft =>
    have twice : (m.shiftOperand x y * 2).toNat = (2 * s) % 0x100 := by
      rw [UInt8.toNat_mul, shifted, Nat.mul_comm]
      rfl
    have high : (m.shiftOperand x y / 128).toNat = s / 0x80 := by
      rw [UInt8.toNat_div, shifted]
      rfl
    exact computes_of_setRegAndFlag running word rfl rfl twice high

end Machine

/-- An operation on two registers puts its result into the first one and then its flag, if it has
one, into the flag register, both computed from what the registers held before, whichever of the
registers are the same.  Setting a register to a byte and adding a byte to it have no flag. -/
theorem arithmetic_under_aliasing {m : Machine} (running : m.activity = .running) :
    (∀ (o : ByteOperation) (x y : Register),
      (m.fetch m.pc).toNat = 0x8000 + x.val * 0x100 + y.val * 0x10 + o.digit.val →
        let a := (m.reg x).toNat
        let b := (m.reg y).toNat
        let s := if m.dialect.has .shift then b else a
        m.Computes x (o.result a b s) (o.flag? a b s)) ∧
      (∀ (x : Register) (byte : UInt8),
        (m.fetch m.pc).toNat = 0x6000 + x.val * 0x100 + byte.toNat →
          m.Computes x byte.toNat none) ∧
      ∀ (x : Register) (byte : UInt8),
        (m.fetch m.pc).toNat = 0x7000 + x.val * 0x100 + byte.toNat →
          m.Computes x (((m.reg x).toNat + byte.toNat) % 0x100) none := by
  refine ⟨?_, ?_, ?_⟩
  · intro o x y word
    have decoded := ByteOperation.decode_of_toNat_eq_instruction word
    exact Machine.computes_of_operation running o y decoded
  · intro x byte word
    have decoded : decode (m.fetch m.pc) = .setByte x byte := by
      have number : (wordOfByte 0x6 x byte).toNat = _ := toNat_wordOfByte (by decide) x byte
      exact decode_of_toNat_eq nofun nofun (word.trans number.symm)
    exact Machine.computes_of_setReg running decoded rfl rfl rfl
  · intro x byte word
    have decoded : decode (m.fetch m.pc) = .addByte x byte := by
      have number : (wordOfByte 0x7 x byte).toNat = _ := toNat_wordOfByte (by decide) x byte
      exact decode_of_toNat_eq nofun nofun (word.trans number.symm)
    exact Machine.computes_of_setReg running decoded rfl rfl (UInt8.toNat_add ..)

/-- A program subtracts the flag register from itself: the difference is zero, but the flag is kept,
since nothing was borrowed. -/
theorem arithmetic_under_aliasing_flag_register :
    let m := (Machine.powerOn {} 0 default).after [.load [0x6F, 0x05, 0x8F, 0xF5], .step]
    m.reg Register.flag = 5 ∧ m.Computes Register.flag 0 (some 1) := by
  intro m
  have facts : m.activity = .running ∧ (m.fetch m.pc).toNat = 0x8FF5 ∧
      m.reg Register.flag = 5 := by
    decide +kernel
  obtain ⟨running, word, before⟩ := facts
  obtain ⟨operations, -, -⟩ := arithmetic_under_aliasing running
  have computes := operations .sub Register.flag Register.flag word
  rw [before] at computes
  exact ⟨before, computes⟩

end Chip8
