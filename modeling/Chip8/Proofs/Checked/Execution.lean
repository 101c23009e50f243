import Chip8.Proofs.Checked.Stores
import Chip8.Proofs.Decoding
import Chip8.Machine.Operation

namespace Chip8

/-!
# Operations with every access checked

The machine once more, with all stores accessed by number: the digits of the word, the
masked addresses, the wrapped coordinates and the depth of the stack say which number, and
an access that finds nothing makes the whole operation fail.

* `Machine.execute?` — the instruction of a word.
* `Machine.step?`, `Machine.runFrame?` — steps and frames.
* `Operation.perform?` — operations.
-/

/-- The number of the register that the second digit of a word names. -/
def digitX (w : UInt16) : Nat := ((w >>> 8) &&& 0x0F).toNat

/-- The number of the register that the third digit of a word names. -/
def digitY (w : UInt16) : Nat := ((w >>> 4) &&& 0x0F).toNat

/-- The memory that holds the glyphs and nothing else. -/
def Memory.initial? : Option Memory :=
  Bank.writeEach? .blank (font.zipIdx.map fun (value, k) => (fontBase + k, value))

namespace Machine

/-! ### Parts of instructions -/

/-- The byte in the register with a number. -/
def reg? (m : Machine) (number : Nat) : Option UInt8 := m.registers.read? number

/-- Put a byte into the register with a number. -/
def setReg? (m : Machine) (number : Nat) (value : UInt8) : Option Machine := do
  let registers ← m.registers.write? number value
  some { m with registers := registers }

/-- Put a byte into the register with a number and then the flag into register `VF`. -/
def setRegAndFlag? (m : Machine) (number : Nat) (value flag : UInt8) : Option Machine := do
  let after ← m.setReg? number value
  after.setReg? 0xF flag

/-- The bytes of as many cells as asked for, from the index register on. -/
def bytesAtIndex? (m : Machine) (count : Nat) : Option (List UInt8) :=
  m.memory.readEach? ((List.range count).map fun k => cellNumber (m.index + UInt16.ofNat k))

/-- The memory with bytes put into cells from the index register on. -/
def writeAtIndex? (m : Machine) (values : List UInt8) : Option Memory :=
  m.memory.writeEach?
    (values.zipIdx.map fun (value, k) => (cellNumber (m.index + UInt16.ofNat k), value))

/-! ### Instructions -/

/-- The machine after an instruction that can be carried out, given the number of its first
register and the bytes in its two registers. -/
def executeOn? (m : Machine) (x : Nat) (a b : UInt8) (i : Instruction) : Option Machine :=
  let s := if m.dialect.shiftReadsSecond then b else a
  match i with
  | .native _ => some m
  | .data _ => some m
  | .clear => some { m.next with display := .blank }
  | .ret => do
    let (top, calls) ← m.calls.pop?
    some { m with pc := top, calls := calls }
  | .jump target => some { m with pc := target.toWord }
  | .call target => do
    let calls ← m.calls.push? m.next.pc
    some { m with pc := target.toWord, calls := calls }
  | .skipIfByte _ byte => some (m.skipIf (a == byte))
  | .skipUnlessByte _ byte => some (m.skipIf (a != byte))
  | .skipIfEqual _ _ => some (m.skipIf (a == b))
  | .skipUnlessEqual _ _ => some (m.skipIf (a != b))
  | .setByte _ byte => m.next.setReg? x byte
  | .addByte _ byte => m.next.setReg? x (a + byte)
  | .copy _ _ => m.next.setReg? x b
  | .or _ _ => m.next.setReg? x (a ||| b)
  | .and _ _ => m.next.setReg? x (a &&& b)
  | .xor _ _ => m.next.setReg? x (a ^^^ b)
  | .add _ _ =>
    m.next.setRegAndFlag? x (a + b) (flagByte (decide (255 < a.toNat + b.toNat)))
  | .sub _ _ => m.next.setRegAndFlag? x (a - b) (flagByte (decide (b ≤ a)))
  | .subFrom _ _ => m.next.setRegAndFlag? x (b - a) (flagByte (decide (a ≤ b)))
  | .shiftRight _ _ => m.next.setRegAndFlag? x (s / 2) (s % 2)
  | .shiftLeft _ _ => m.next.setRegAndFlag? x (s * 2) (s / 128)
  | .setIndex target => some { m.next with index := target.toWord }
  | .jumpOffset base => do
    let offset ← if m.dialect.jumpReadsNamed then some a else m.reg? 0
    some { m with pc := (Address.wrap (base.val + offset.toNat)).toWord }
  | .random _ mask => do
    let after ← m.next.setReg? x (m.random.next &&& mask)
    some { after with random := m.random.advance }
  | .draw _ _ rows => do
    let sprite ← m.bytesAtIndex? rows.val
    let drawing ← m.display.draw? (a.toNat % Display.width) (b.toNat % Display.height) sprite
    let after ← m.next.setReg? 0xF (flagByte drawing.collided)
    some { after with display := drawing.display }
  | .skipIfKey _ => do
    let down ← m.keys.isDown? (a &&& 0x0F).toNat
    some (m.skipIf down)
  | .skipUnlessKey _ => do
    let down ← m.keys.isDown? (a &&& 0x0F).toNat
    some (m.skipIf !down)
  | .readDelay _ => m.next.setReg? x m.delay
  | .awaitKey x => some { m with activity := .awaitingKey x m.keys }
  | .setDelay _ => some { m.next with delay := a }
  | .setSound _ => some { m.next with sound := a }
  | .addIndex _ => some { m.next with index := m.index + a.toUInt16 }
  | .glyph _ =>
    some { m.next with index := UInt16.ofNat (fontBase + (a &&& 0x0F).toNat * glyphSize) }
  | .decimal _ => do
    let memory ← m.writeAtIndex? (decimalDigits a)
    some { m.next with memory := memory }
  | .store register => do
    let bytes ← m.registers.readEach? (List.range (x + 1))
    let memory ← m.writeAtIndex? bytes
    some { m.next with memory := memory, index := m.indexAfterTransfer register }
  | .load register => do
    let bytes ← m.bytesAtIndex? (x + 1)
    let registers ← m.registers.writeEach? (bytes.zipIdx.map fun (value, k) => (k, value))
    some { m.next with registers := registers, index := m.indexAfterTransfer register }

/-- The machine after the instruction of a word that can be carried out.  The registers
that its digits name are looked up first, whatever the instruction does with them. -/
def execute? (m : Machine) (w : UInt16) : Option Machine := do
  let a ← m.reg? (digitX w)
  let b ← m.reg? (digitY w)
  m.executeOn? (digitX w) a b (decode w)

/-! ### Steps and frames -/

/-- Look at the keys while waiting. -/
def poll? (m : Machine) (register : Register) (seen : Keypad) : Option Machine := do
  let pressed ← (List.range 16).findM? fun number => do
    let now ← m.keys.isDown? number
    let before ← seen.isDown? number
    some (now && !before)
  match pressed with
  | some number => do
    let after ← m.next.setReg? register.val (UInt8.ofNat number)
    some { after with activity := .running }
  | none => some { m with activity := .awaitingKey register m.keys }

/-- The word that the bytes at an address and after it make up. -/
def fetch? (m : Machine) (address : UInt16) : Option UInt16 := do
  let high ← m.memory.read? (cellNumber address)
  let low ← m.memory.read? (cellNumber (address + 1))
  some (wordOfBytes high low)

/-- Execute the instruction at the program counter, or halt there. -/
def dispatch? (m : Machine) : Option Outcome := do
  let word ← m.fetch? m.pc
  match m.refusal? (decode word) with
  | some kind => some (m.halt ⟨kind, word, m.pc⟩)
  | none => do
    let traffic := if m.traceLimit = 0 then [] else m.traffic (decode word)
    let after ← m.execute? word
    some { machine := after.complete m.pc word (decode word).form traffic }

/-- One step. -/
def step? (m : Machine) : Option Outcome :=
  match m.activity with
  | .running => m.dispatch?
  | .awaitingKey register seen => do
    let after ← m.poll? register seen
    some { machine := after }
  | .halted fault => some { machine := m, fault? := some fault }

/-- Steps until a number of them are done, a fault arises, or the machine waits. -/
def steps? : Nat → Machine → Option Outcome
  | 0, m => some { machine := m }
  | count + 1, m => do
    let o ← m.step?
    if o.fault?.isSome || o.machine.isWaiting then some o else steps? count o.machine

/-- One frame. -/
def runFrame? (m : Machine) (stepsPerFrame : Nat) : Option Outcome :=
  match m.activity with
  | .halted fault => some { machine := m, fault? := some fault }
  | _ => do
    let o ← steps? stepsPerFrame m
    match o.fault? with
    | some _ => some o
    | none =>
      let after := o.machine.countDown
      some { o with machine := { after with frames := after.frames + 1 } }

/-! ### Operations -/

/-- The machine as at power-on; how it was set up stays. -/
def reset? (m : Machine) : Option Machine := do
  let memory ← Memory.initial?
  some { m.reset with memory := memory }

/-- Reset the machine and put a program into its memory, if it fits. -/
def load? (m : Machine) (program : List UInt8) : Option Outcome :=
  if program.length ≤ programCapacity then do
    let after ← m.reset?
    let memory ← after.memory.writeEach?
      (program.zipIdx.map fun (value, k) => (programStart + k, value))
    some { machine := { after with memory := memory }, notices := [.loaded program.length] }
  else
    some { machine := m, fault? := some oversizedFault, notices := [.oversized program.length] }

/-- Press or release a key; a number that no key has does nothing. -/
def withKey? (m : Machine) (number : Nat) (down : Bool) : Option Machine :=
  if 16 ≤ number then some m
  else do
    let keys ← m.keys.set? number down
    some { m with keys := keys }

/-- Put a byte into a memory cell. -/
def poke? (m : Machine) (address : Address) (value : UInt8) : Option Machine := do
  let memory ← m.memory.write? address.val value
  some { m with memory := memory }

end Machine

/-- What an operation leaves behind, unless some access finds nothing. -/
def Operation.perform? (o : Operation) (m : Machine) : Option Outcome :=
  match o with
  | reset => do
    let after ← m.reset?
    some { machine := after }
  | load program => m.load? program
  | key number down => do
    let after ← m.withKey? number down
    some { machine := after }
  | step => m.step?
  | frame steps => m.runFrame? steps
  | countDown => some { machine := m.countDown }
  | setDialect dialect => some { machine := { m with dialect := dialect } }
  | setTraceLimit limit => some { machine := { m with traceLimit := limit } }
  | poke address value => do
    let after ← m.poke? address value
    some { machine := after }

end Chip8
