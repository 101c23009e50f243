import Chip8.Machine

namespace Chip8

/-!
# What instructions do

An instruction is first looked at for a reason not to carry it out; if there is none, it
takes the machine to another one.  Nothing in between is observable, so an instruction that
is refused has done nothing.

* `Machine.refusal?` — why an instruction cannot be carried out.
* `Machine.execute` — the machine after an instruction.
* `Machine.traffic` — the bytes that an instruction moves between memory and the machine.
-/

namespace Machine

/-- The byte in a register. -/
def reg (m : Machine) (x : Register) : UInt8 := m.registers.read x

/-! ### Steps of an instruction -/

/-- Go on to the next instruction. -/
@[inline] def next (m : Machine) : Machine := { m with pc := addressAfter m.pc 2 }

/-- Go on to the next instruction, or past it on a condition. -/
@[inline] def skipIf (m : Machine) (condition : Bool) : Machine :=
  { m with pc := addressAfter m.pc (if condition then 4 else 2) }

/-- Put a byte into a register. -/
@[inline] def setReg (m : Machine) (x : Register) (value : UInt8) : Machine :=
  { m with registers := m.registers.write x value }

@[simp] theorem reg_setReg_self (m : Machine) (x : Register) (value : UInt8) :
    (m.setReg x value).reg x = value :=
  Bank.read_write_self ..

theorem reg_setReg_of_ne (m : Machine) {x y : Register} (h : x ≠ y) (value : UInt8) :
    (m.setReg x value).reg y = m.reg y :=
  Bank.read_write_of_ne _ h value

/-- A condition as the flag register holds it. -/
def flagByte (condition : Bool) : UInt8 := if condition then 1 else 0

/-- Put a byte into a register and then the flag into its register, where it stays even if
both registers are the same. -/
@[inline] def setRegAndFlag (m : Machine) (x : Register) (value flag : UInt8) : Machine :=
  { m with registers := (m.registers.write x value).write Register.flag flag }

/-! ### Operands -/

/-- The operand of a shift. -/
def shiftOperand (m : Machine) (x y : Register) : UInt8 :=
  if m.dialect.shiftReadsSecond then m.reg y else m.reg x

/-- The address that an offset jump goes to. -/
def offsetTarget (m : Machine) (base : Address) : Address :=
  let x : Register := if m.dialect.jumpReadsNamed then Fin.ofNat 16 (base.val / 256) else 0
  Address.wrap (base.val + (m.reg x).toNat)

/-- The key that a register names by its last digit. -/
def namedKey (m : Machine) (x : Register) : Key := Fin.ofNat 16 (m.reg x).toNat

/-- The rows of the sprite that the index register points at. -/
def spriteRows (m : Machine) (rows : Fin 16) : List UInt8 :=
  m.memory.readFrom m.index.toNat rows.val

/-- The three decimal digits of a byte. -/
def decimalDigits (value : UInt8) : List UInt8 := [value / 100, value / 10 % 10, value % 10]

/-- The bytes of the registers up to one of them. -/
def registersUpTo (m : Machine) (x : Register) : List UInt8 :=
  m.registers.readFrom 0 (x.val + 1)

/-- The bytes that the index register points at, one for each register up to one of them. -/
def bytesUpTo (m : Machine) (x : Register) : List UInt8 :=
  m.memory.readFrom m.index.toNat (x.val + 1)

/-- The index register after the registers up to one of them have been stored or loaded. -/
def indexAfterTransfer (m : Machine) (x : Register) : UInt16 :=
  if m.dialect.transferMovesIndex then m.index + UInt16.ofNat (x.val + 1) else m.index

/-! ### Instructions -/

/-- Why an instruction cannot be carried out, if it cannot. -/
def refusal? (m : Machine) : Instruction → Option FaultKind
  | .native _ => some .unknownInstruction
  | .data _ => some .unknownInstruction
  | .call _ => if m.calls.isFull then some .stackOverflow else none
  | .ret => if m.calls.isEmpty then some .stackUnderflow else none
  | _ => none

/-- The machine after an instruction that can be carried out.  Operands are taken before
anything is written, and the flag is written last. -/
def execute (m : Machine) (i : Instruction) : Machine :=
  match i with
  | .native _ => m
  | .data _ => m
  | .clear => { m.next with display := .blank }
  | .ret => { m with pc := m.calls.top, calls := m.calls.pop }
  | .jump target => { m with pc := target.toWord }
  | .call target => { m with pc := target.toWord, calls := m.calls.push m.next.pc }
  | .skipIfByte x byte => m.skipIf (m.reg x == byte)
  | .skipUnlessByte x byte => m.skipIf (m.reg x != byte)
  | .skipIfEqual x y => m.skipIf (m.reg x == m.reg y)
  | .skipUnlessEqual x y => m.skipIf (m.reg x != m.reg y)
  | .setByte x byte => m.next.setReg x byte
  | .addByte x byte => m.next.setReg x (m.reg x + byte)
  | .copy x y => m.next.setReg x (m.reg y)
  | .or x y => m.next.setReg x (m.reg x ||| m.reg y)
  | .and x y => m.next.setReg x (m.reg x &&& m.reg y)
  | .xor x y => m.next.setReg x (m.reg x ^^^ m.reg y)
  | .add x y =>
    let a := m.reg x
    let b := m.reg y
    m.next.setRegAndFlag x (a + b) (flagByte (decide (255 < a.toNat + b.toNat)))
  | .sub x y =>
    let a := m.reg x
    let b := m.reg y
    m.next.setRegAndFlag x (a - b) (flagByte (decide (b ≤ a)))
  | .subFrom x y =>
    let a := m.reg x
    let b := m.reg y
    m.next.setRegAndFlag x (b - a) (flagByte (decide (a ≤ b)))
  | .shiftRight x y =>
    let s := m.shiftOperand x y
    m.next.setRegAndFlag x (s / 2) (s % 2)
  | .shiftLeft x y =>
    let s := m.shiftOperand x y
    m.next.setRegAndFlag x (s * 2) (s / 128)
  | .setIndex target => { m.next with index := target.toWord }
  | .jumpOffset base => { m with pc := (m.offsetTarget base).toWord }
  | .random x mask =>
    { m.next.setReg x (m.random.next &&& mask) with random := m.random.advance }
  | .draw x y rows =>
    let sprite := m.spriteRows rows
    let left := (m.reg x).toNat % Display.width
    let top := (m.reg y).toNat % Display.height
    let drawing := m.display.draw left top sprite
    { m.next.setReg Register.flag (flagByte drawing.collided) with display := drawing.display }
  | .skipIfKey x => m.skipIf (m.keys.isDown (m.namedKey x))
  | .skipUnlessKey x => m.skipIf (!m.keys.isDown (m.namedKey x))
  | .readDelay x => m.next.setReg x m.delay
  | .awaitKey x => { m with activity := .awaitingKey x m.keys }
  | .setDelay x => { m.next with delay := m.reg x }
  | .setSound x => { m.next with sound := m.reg x }
  | .addIndex x => { m.next with index := m.index + (m.reg x).toUInt16 }
  | .glyph x =>
    { m.next with index := UInt16.ofNat (fontBase + (m.namedKey x).val * glyphSize) }
  | .decimal x =>
    { m.next with memory := m.memory.writeFrom m.index.toNat (decimalDigits (m.reg x)) }
  | .store x =>
    { m.next with
      memory := m.memory.writeFrom m.index.toNat (m.registersUpTo x)
      index := m.indexAfterTransfer x }
  | .load x =>
    { m.next with
      registers := m.registers.writeFrom 0 (m.bytesUpTo x)
      index := m.indexAfterTransfer x }

/-! ### Memory traffic -/

/-- A byte moved while the current instruction is executed. -/
def transfer (m : Machine) (direction : Direction) (place : Nat) (data : UInt8)
    (purpose : Purpose) : Transfer where
  cycle := m.cycles
  direction := direction
  address := Address.wrap place
  data := data
  purpose := purpose

/-- Bytes moved one after another from a place on, all for one purpose. -/
def transfers (m : Machine) (direction : Direction) (start : Nat) (purpose : Purpose)
    (bytes : List UInt8) : List Transfer :=
  bytes.zipIdx.map fun (data, k) => m.transfer direction (start + k) data purpose

/-- The bytes moved to read the instruction itself. -/
def fetchTraffic (m : Machine) : List Transfer :=
  let start := m.pc.toNat
  [m.transfer .read start (m.memory.read (Address.wrap start)) .opcodeHigh,
   m.transfer .read (start + 1) (m.memory.read (Address.wrap (start + 1))) .opcodeLow]

/-- The bytes that an instruction moves once it has been read. -/
def operandTraffic (m : Machine) (i : Instruction) : List Transfer :=
  let start := m.index.toNat
  match i with
  | .draw _ _ rows => m.transfers .read start .spriteRow (m.spriteRows rows)
  | .decimal x =>
    (decimalDigits (m.reg x)).zipIdx.zipWith
      (fun (data, k) purpose => m.transfer .write (start + k) data purpose)
      [.hundreds, .tens, .ones]
  | .store x => m.transfers .write start .storeRegister (m.registersUpTo x)
  | .load x => m.transfers .read start .loadRegister (m.bytesUpTo x)
  | _ => []

/-- The bytes moved to read and carry out an instruction, in order. -/
def traffic (m : Machine) (i : Instruction) : List Transfer :=
  m.fetchTraffic ++ m.operandTraffic i

end Machine

end Chip8
