import Chip8.Instruction

namespace Chip8

/-!
# Forms of instruction

A form is an instruction without its operands.  Forms are numbered in a fixed order, and
several of them share a mnemonic: what tells them apart in a listing is their operands.

* `Instruction.form` — the form of an instruction.
* `Form.number`, `Form.ofNumber?` — the place of a form in the order, and back.
* `Form.mnemonic` — the name a listing begins with.
-/

/-- An instruction without its operands. -/
inductive Form where
  | native | clear | ret | jump | call
  | skipIfByte | skipUnlessByte | skipIfEqual
  | setByte | addByte
  | copy | or | and | xor | add | sub | shiftRight | subFrom | shiftLeft
  | skipUnlessEqual
  | setIndex | jumpOffset | random | draw
  | skipIfKey | skipUnlessKey
  | readDelay | awaitKey | setDelay | setSound
  | addIndex | glyph | decimal | store | load
  | data
  deriving Repr, DecidableEq, Inhabited

namespace Form

/-- All forms, in the order of their numbers. -/
def all : List Form :=
  [native, clear, ret, jump, call,
   skipIfByte, skipUnlessByte, skipIfEqual,
   setByte, addByte,
   copy, or, and, xor, add, sub, shiftRight, subFrom, shiftLeft,
   skipUnlessEqual,
   setIndex, jumpOffset, random, draw,
   skipIfKey, skipUnlessKey,
   readDelay, awaitKey, setDelay, setSound,
   addIndex, glyph, decimal, store, load,
   data]

/-- The place of a form in the order. -/
def number (f : Form) : Nat := all.idxOf f

/-- The form at a place in the order. -/
def ofNumber? (n : Nat) : Option Form := all[n]?

@[simp] theorem ofNumber?_number (f : Form) : ofNumber? f.number = some f := by
  cases f <;> rfl

/-- The name that a listing begins with. -/
def mnemonic : Form → String
  | native => "SYS"
  | clear => "CLS"
  | ret => "RET"
  | jump | jumpOffset => "JP"
  | call => "CALL"
  | skipIfByte | skipIfEqual => "SE"
  | skipUnlessByte | skipUnlessEqual => "SNE"
  | setByte | copy | setIndex => "LD"
  | addByte | add | addIndex => "ADD"
  | or => "OR"
  | and => "AND"
  | xor => "XOR"
  | sub => "SUB"
  | shiftRight => "SHR"
  | subFrom => "SUBN"
  | shiftLeft => "SHL"
  | random => "RND"
  | draw => "DRW"
  | skipIfKey => "SKP"
  | skipUnlessKey => "SKNP"
  | readDelay | awaitKey | setDelay | setSound => "LD"
  | glyph | decimal | store | load => "LD"
  | data => ".DW"

end Form

/-- The form of an instruction. -/
def Instruction.form : Instruction → Form
  | native _ => .native
  | clear => .clear
  | ret => .ret
  | jump _ => .jump
  | call _ => .call
  | skipIfByte _ _ => .skipIfByte
  | skipUnlessByte _ _ => .skipUnlessByte
  | skipIfEqual _ _ => .skipIfEqual
  | setByte _ _ => .setByte
  | addByte _ _ => .addByte
  | copy _ _ => .copy
  | or _ _ => .or
  | and _ _ => .and
  | xor _ _ => .xor
  | add _ _ => .add
  | sub _ _ => .sub
  | shiftRight _ _ => .shiftRight
  | subFrom _ _ => .subFrom
  | shiftLeft _ _ => .shiftLeft
  | skipUnlessEqual _ _ => .skipUnlessEqual
  | setIndex _ => .setIndex
  | jumpOffset _ => .jumpOffset
  | random _ _ => .random
  | draw _ _ _ => .draw
  | skipIfKey _ => .skipIfKey
  | skipUnlessKey _ => .skipUnlessKey
  | readDelay _ => .readDelay
  | awaitKey _ => .awaitKey
  | setDelay _ => .setDelay
  | setSound _ => .setSound
  | addIndex _ => .addIndex
  | glyph _ => .glyph
  | decimal _ => .decimal
  | store _ => .store
  | load _ => .load
  | data _ => .data

end Chip8
