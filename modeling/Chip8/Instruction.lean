import Chip8.Word

namespace Chip8

/-!
# Instructions

The thirty-five instructions of the machine, each with the operands it has, and one more
case for the words that are no instruction.  Words and instructions determine each other:

* `decode` — the instruction that a word stands for; every word has one.
* `Instruction.encode` — the word that an instruction is written as.
* `encode_decode` — writing what was read gives the word back, so decoding loses nothing.
-/

/-- An instruction with its operands. -/
inductive Instruction where
  /-- Run native code at an address; there is none to run. -/
  | native (target : Address)
  /-- Blank the display. -/
  | clear
  /-- Return from a subroutine. -/
  | ret
  /-- Go to an address. -/
  | jump (target : Address)
  /-- Call the subroutine at an address. -/
  | call (target : Address)
  /-- Skip the next instruction if a register equals a byte. -/
  | skipIfByte (x : Register) (byte : UInt8)
  /-- Skip the next instruction unless a register equals a byte. -/
  | skipUnlessByte (x : Register) (byte : UInt8)
  /-- Skip the next instruction if two registers are equal. -/
  | skipIfEqual (x y : Register)
  /-- Put a byte into a register. -/
  | setByte (x : Register) (byte : UInt8)
  /-- Add a byte to a register; the flag stays. -/
  | addByte (x : Register) (byte : UInt8)
  /-- Copy the second register into the first. -/
  | copy (x y : Register)
  /-- Bitwise or of two registers. -/
  | or (x y : Register)
  /-- Bitwise and of two registers. -/
  | and (x y : Register)
  /-- Bitwise exclusive or of two registers. -/
  | xor (x y : Register)
  /-- Sum of two registers; the flag tells of a carry. -/
  | add (x y : Register)
  /-- First register less the second; the flag tells that none was borrowed. -/
  | sub (x y : Register)
  /-- Half of a register; the flag is the bit shifted out. -/
  | shiftRight (x y : Register)
  /-- Second register less the first; the flag tells that none was borrowed. -/
  | subFrom (x y : Register)
  /-- Twice a register; the flag is the bit shifted out. -/
  | shiftLeft (x y : Register)
  /-- Skip the next instruction unless two registers are equal. -/
  | skipUnlessEqual (x y : Register)
  /-- Point the index register at an address. -/
  | setIndex (target : Address)
  /-- Go to an address offset by a register. -/
  | jumpOffset (base : Address)
  /-- A random byte under a mask. -/
  | random (x : Register) (mask : UInt8)
  /-- Draw a sprite of some rows at the place that two registers give. -/
  | draw (x y : Register) (rows : Fin 16)
  /-- Skip the next instruction if the key that a register names is down. -/
  | skipIfKey (x : Register)
  /-- Skip the next instruction unless the key that a register names is down. -/
  | skipUnlessKey (x : Register)
  /-- Read the delay timer. -/
  | readDelay (x : Register)
  /-- Wait until a key is pressed and put its number into a register. -/
  | awaitKey (x : Register)
  /-- Start the delay timer. -/
  | setDelay (x : Register)
  /-- Start the sound timer. -/
  | setSound (x : Register)
  /-- Add a register to the index register. -/
  | addIndex (x : Register)
  /-- Point the index register at the glyph of a digit. -/
  | glyph (x : Register)
  /-- Write the three decimal digits of a register to memory. -/
  | decimal (x : Register)
  /-- Write the registers up to this one to memory. -/
  | store (x : Register)
  /-- Read the registers up to this one from memory. -/
  | load (x : Register)
  /-- A word that is no instruction. -/
  | data (word : UInt16)
  deriving Repr, DecidableEq, Inhabited

/-! ### The parts of a word -/

/-- The second digit of a word, where most instructions name a register. -/
def registerX (w : UInt16) : Register := Fin.ofNat 16 (w.toNat / 256)

/-- The third digit of a word, where some instructions name a second register. -/
def registerY (w : UInt16) : Register := Fin.ofNat 16 (w.toNat / 16)

/-- The last digit of a word. -/
def lastDigit (w : UInt16) : Fin 16 := Fin.ofNat 16 w.toNat

/-- The low byte of a word. -/
def lowByte (w : UInt16) : UInt8 := UInt8.ofNat w.toNat

/-- The address in the last three digits of a word. -/
def target (w : UInt16) : Address := Address.wrap w.toNat

@[simp] theorem val_registerX (w : UInt16) : (registerX w).val = w.toNat / 256 % 16 := rfl

@[simp] theorem val_registerY (w : UInt16) : (registerY w).val = w.toNat / 16 % 16 := rfl

@[simp] theorem val_lastDigit (w : UInt16) : (lastDigit w).val = w.toNat % 16 := rfl

@[simp] theorem val_target (w : UInt16) : (target w).val = w.toNat % 4096 := rfl

@[simp] theorem toNat_lowByte (w : UInt16) : (lowByte w).toNat = w.toNat % 256 := by
  simp [lowByte]

/-! ### Reading words -/

/-- The instructions on two registers, told apart by the last digit. -/
def decodeArithmetic (w : UInt16) : Instruction :=
  let x := registerX w
  let y := registerY w
  match w.toNat % 16 with
  | 0x0 => .copy x y
  | 0x1 => .or x y
  | 0x2 => .and x y
  | 0x3 => .xor x y
  | 0x4 => .add x y
  | 0x5 => .sub x y
  | 0x6 => .shiftRight x y
  | 0x7 => .subFrom x y
  | 0xE => .shiftLeft x y
  | _ => .data w

/-- The instructions on one register, told apart by the low byte. -/
def decodeTransfer (w : UInt16) : Instruction :=
  let x := registerX w
  match w.toNat % 256 with
  | 0x07 => .readDelay x
  | 0x0A => .awaitKey x
  | 0x15 => .setDelay x
  | 0x18 => .setSound x
  | 0x1E => .addIndex x
  | 0x29 => .glyph x
  | 0x33 => .decimal x
  | 0x55 => .store x
  | 0x65 => .load x
  | _ => .data w

/-- The instruction that a word stands for.  The first digit names a group; some groups
look at further digits. -/
def decode (w : UInt16) : Instruction :=
  let x := registerX w
  let y := registerY w
  match w.toNat / 4096 with
  | 0x0 =>
    match w.toNat with
    | 0x00E0 => .clear
    | 0x00EE => .ret
    | _ => .native (target w)
  | 0x1 => .jump (target w)
  | 0x2 => .call (target w)
  | 0x3 => .skipIfByte x (lowByte w)
  | 0x4 => .skipUnlessByte x (lowByte w)
  | 0x5 => if w.toNat % 16 = 0 then .skipIfEqual x y else .data w
  | 0x6 => .setByte x (lowByte w)
  | 0x7 => .addByte x (lowByte w)
  | 0x8 => decodeArithmetic w
  | 0x9 => if w.toNat % 16 = 0 then .skipUnlessEqual x y else .data w
  | 0xA => .setIndex (target w)
  | 0xB => .jumpOffset (target w)
  | 0xC => .random x (lowByte w)
  | 0xD => .draw x y (lastDigit w)
  | 0xE =>
    match w.toNat % 256 with
    | 0x9E => .skipIfKey x
    | 0xA1 => .skipUnlessKey x
    | _ => .data w
  | _ => decodeTransfer w

/-! ### Writing words -/

/-- A word of a group digit and three digits of an address. -/
def wordOfTarget (group : Nat) (target : Address) : UInt16 :=
  UInt16.ofNat (group * 4096 + target.val)

/-- A word of a group digit, a register and a byte. -/
def wordOfByte (group : Nat) (x : Register) (byte : UInt8) : UInt16 :=
  UInt16.ofNat (group * 4096 + x.val * 256 + byte.toNat)

/-- A word of a group digit, two registers and a last digit. -/
def wordOfPair (group : Nat) (x y : Register) (last : Fin 16) : UInt16 :=
  UInt16.ofNat (group * 4096 + x.val * 256 + y.val * 16 + last.val)

theorem toNat_wordOfTarget {group : Nat} (h : group < 16) (target : Address) :
    (wordOfTarget group target).toNat = group * 4096 + target.val := by
  have := target.isLt
  simp only [wordOfTarget, UInt16.toNat_ofNat']
  omega

theorem toNat_wordOfByte {group : Nat} (h : group < 16) (x : Register) (byte : UInt8) :
    (wordOfByte group x byte).toNat = group * 4096 + x.val * 256 + byte.toNat := by
  have := x.isLt
  have := byte.toNat_lt
  simp only [wordOfByte, UInt16.toNat_ofNat']
  omega

theorem toNat_wordOfPair {group : Nat} (h : group < 16) (x y : Register) (last : Fin 16) :
    (wordOfPair group x y last).toNat =
      group * 4096 + x.val * 256 + y.val * 16 + last.val := by
  have := x.isLt
  have := y.isLt
  have := last.isLt
  simp only [wordOfPair, UInt16.toNat_ofNat']
  omega

namespace Instruction

/-- The word that an instruction is written as. -/
def encode : Instruction → UInt16
  | native target => wordOfTarget 0x0 target
  | clear => 0x00E0
  | ret => 0x00EE
  | jump target => wordOfTarget 0x1 target
  | call target => wordOfTarget 0x2 target
  | skipIfByte x byte => wordOfByte 0x3 x byte
  | skipUnlessByte x byte => wordOfByte 0x4 x byte
  | skipIfEqual x y => wordOfPair 0x5 x y 0x0
  | setByte x byte => wordOfByte 0x6 x byte
  | addByte x byte => wordOfByte 0x7 x byte
  | copy x y => wordOfPair 0x8 x y 0x0
  | or x y => wordOfPair 0x8 x y 0x1
  | and x y => wordOfPair 0x8 x y 0x2
  | xor x y => wordOfPair 0x8 x y 0x3
  | add x y => wordOfPair 0x8 x y 0x4
  | sub x y => wordOfPair 0x8 x y 0x5
  | shiftRight x y => wordOfPair 0x8 x y 0x6
  | subFrom x y => wordOfPair 0x8 x y 0x7
  | shiftLeft x y => wordOfPair 0x8 x y 0xE
  | skipUnlessEqual x y => wordOfPair 0x9 x y 0x0
  | setIndex target => wordOfTarget 0xA target
  | jumpOffset base => wordOfTarget 0xB base
  | random x mask => wordOfByte 0xC x mask
  | draw x y rows => wordOfPair 0xD x y rows
  | skipIfKey x => wordOfByte 0xE x 0x9E
  | skipUnlessKey x => wordOfByte 0xE x 0xA1
  | readDelay x => wordOfByte 0xF x 0x07
  | awaitKey x => wordOfByte 0xF x 0x0A
  | setDelay x => wordOfByte 0xF x 0x15
  | setSound x => wordOfByte 0xF x 0x18
  | addIndex x => wordOfByte 0xF x 0x1E
  | glyph x => wordOfByte 0xF x 0x29
  | decimal x => wordOfByte 0xF x 0x33
  | store x => wordOfByte 0xF x 0x55
  | load x => wordOfByte 0xF x 0x65
  | data word => word

end Instruction

/-! ### Writing what was read -/

theorem encode_decodeArithmetic (w : UInt16) (h : w.toNat / 4096 = 0x8) :
    (decodeArithmetic w).encode = w := by
  apply UInt16.toNat_inj.mp
  unfold decodeArithmetic
  dsimp only
  split <;> simp [Instruction.encode, toNat_wordOfPair] <;> omega

theorem encode_decodeTransfer (w : UInt16) (h : w.toNat / 4096 = 0xF) :
    (decodeTransfer w).encode = w := by
  apply UInt16.toNat_inj.mp
  unfold decodeTransfer
  dsimp only
  split <;> simp [Instruction.encode, toNat_wordOfByte] <;> omega

/-- Writing the instruction that a word stands for gives the word back. -/
theorem encode_decode (w : UInt16) : (decode w).encode = w := by
  have := w.toNat_lt
  unfold decode
  dsimp only
  split
  case h_1 =>
    split
    · next h => exact UInt16.toNat_inj.mp (by simp [Instruction.encode, h])
    · next h => exact UInt16.toNat_inj.mp (by simp [Instruction.encode, h])
    · apply UInt16.toNat_inj.mp
      simp [Instruction.encode, toNat_wordOfTarget]
      omega
  case h_9 h => exact encode_decodeArithmetic w h
  case h_15 =>
    apply UInt16.toNat_inj.mp
    split <;> simp [Instruction.encode, toNat_wordOfByte] <;> omega
  case h_16 => exact encode_decodeTransfer w (by simp only [imp_false] at *; omega)
  case h_6 | h_10 =>
    apply UInt16.toNat_inj.mp
    split
    · simp [Instruction.encode, toNat_wordOfPair]
      omega
    · rfl
  all_goals
    apply UInt16.toNat_inj.mp
    simp [Instruction.encode, toNat_wordOfTarget, toNat_wordOfByte, toNat_wordOfPair]
    omega

end Chip8
