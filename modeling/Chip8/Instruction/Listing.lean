import Chip8.Hex
import Chip8.Instruction.Form

namespace Chip8

/-!
# Listings

A listing is the text of one instruction: the mnemonic of its form and then its operands
between commas.  The operands are drawn from the fields that a word is cut into.

* `Fields.ofWord` — the fields of a word.
* `Form.listing` — the text of a form with given fields.
* `listing` — the text of a word.
-/

/-- The fields from which a listing takes its operands: the whole word, its second, third
and last digit, its low byte and its last three digits.  A listing shows them as they are,
also where they are larger than any word would make them. -/
structure Fields where
  /-- The whole word. -/
  word : UInt16
  /-- The number of the first register. -/
  x : UInt8
  /-- The number of the second register. -/
  y : UInt8
  /-- The count of rows of a sprite. -/
  n : UInt8
  /-- An immediate byte. -/
  byte : UInt8
  /-- An address. -/
  address : UInt16
  deriving Repr, DecidableEq, Inhabited

/-- The fields that a word is cut into. -/
def Fields.ofWord (w : UInt16) : Fields where
  word := w
  x := UInt8.ofNat (registerX w).val
  y := UInt8.ofNat (registerY w).val
  n := UInt8.ofNat (lastDigit w).val
  byte := lowByte w
  address := (target w).toWord

/-- An operand of a listing. -/
inductive Operand where
  /-- A register, by its number. -/
  | register (number : UInt8)
  /-- A byte in two digits. -/
  | byte (value : UInt8)
  /-- An address in three digits. -/
  | address (value : UInt16)
  /-- A word in four digits. -/
  | word (value : UInt16)
  /-- A count in decimal. -/
  | count (value : UInt8)
  /-- A part of the machine, by its name. -/
  | named (name : String)
  deriving Repr, DecidableEq

/-- An operand as a listing shows it: numbers in base sixteen follow a dollar sign. -/
def Operand.text : Operand → String
  | register number => "V" ++ hex 1 number.toNat
  | byte value => "$" ++ hexByte value
  | address value => "$" ++ hex 3 value.toNat
  | word value => "$" ++ hexWord value
  | count value => toString value.toNat
  | named name => name

/-- The operands that a form takes from the fields. -/
def Form.operands (f : Form) (s : Fields) : List Operand :=
  match f with
  | clear | ret => []
  | native | jump | call => [.address s.address]
  | skipIfByte | skipUnlessByte | setByte | addByte | random =>
    [.register s.x, .byte s.byte]
  | skipIfEqual | skipUnlessEqual | copy | or | and | xor
  | add | sub | shiftRight | subFrom | shiftLeft => [.register s.x, .register s.y]
  | setIndex => [.named "I", .address s.address]
  | jumpOffset => [.named "V0", .address s.address]
  | draw => [.register s.x, .register s.y, .count s.n]
  | skipIfKey | skipUnlessKey => [.register s.x]
  | readDelay => [.register s.x, .named "DT"]
  | awaitKey => [.register s.x, .named "K"]
  | setDelay => [.named "DT", .register s.x]
  | setSound => [.named "ST", .register s.x]
  | addIndex => [.named "I", .register s.x]
  | glyph => [.named "F", .register s.x]
  | decimal => [.named "B", .register s.x]
  | store => [.named "[I]", .register s.x]
  | load => [.register s.x, .named "[I]"]
  | data => [.word s.word]

/-- The text of a form with given fields. -/
def Form.listing (f : Form) (s : Fields) : String :=
  match f.operands s with
  | [] => f.mnemonic
  | operands => f.mnemonic ++ " " ++ ", ".intercalate (operands.map Operand.text)

/-- What is shown in place of a form whose number no form has. -/
def unknownForm : String := "?"

/-- The mnemonic of the form with a number. -/
def mnemonicOfNumber (n : Nat) : String :=
  match Form.ofNumber? n with
  | some f => f.mnemonic
  | none => unknownForm

/-- The text of the form with a number and given fields. -/
def listingOfNumber (n : Nat) (s : Fields) : String :=
  match Form.ofNumber? n with
  | some f => f.listing s
  | none => unknownForm

/-- The text of a word. -/
def listing (w : UInt16) : String := (decode w).form.listing (Fields.ofWord w)

end Chip8
