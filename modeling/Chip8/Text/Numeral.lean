import Chip8.Hex
import Chip8.Text
import Chip8.Word

namespace Chip8

/-!
# Numerals

A numeral is what a text begins with when it begins with a number: blanks, a sign, perhaps
a mark of the base, and digits.  What follows the digits is left over.

* `Numeral.read?` — the numeral at the head of a text, if there is one.
* `signedNumber?` — a text that is one numeral, in any base, within 64 bits.
* `operandNumber` — the decimal number that a word begins with, within 32 bits.
* `hexNumber?` — a word of digits of base sixteen, up to a bound.
* `foldedAddress?` — the number of base sixteen that a word begins with, as an address.
-/

/-- How the base of a numeral is found. -/
inductive Radix where
  /-- The base is ten. -/
  | decimal
  /-- The base is sixteen, and a mark of it may stand before the digits. -/
  | hexadecimal
  /-- A mark tells the base: `0x` sixteen and any other `0` eight; without one it is ten. -/
  | marked
  deriving DecidableEq, Repr

/-- A number at the head of a text. -/
structure Numeral where
  /-- Whether a minus sign stood before it. -/
  negative : Bool
  /-- The number without its sign. -/
  magnitude : Nat
  /-- The text after it. -/
  rest : List Char
  deriving DecidableEq, Repr

/-- Whether a character is a digit of a base up to sixteen. -/
def isDigitOf (base : Nat) (c : Char) : Bool :=
  match hexValue? c with
  | some v => v < base
  | none => false

/-- A digit of base sixteen is not blank. -/
theorem isBlank_of_isHexDigit {c : Char} (h : isHexDigit c = true) : isBlank c = false := by
  rw [← Bool.not_eq_true]
  intro blank
  simp only [isBlank, Bool.or_eq_true, Bool.and_eq_true, beq_iff_eq, decide_eq_true_eq] at blank
  -- the codes of blanks come before those of digits
  have before : ¬ 48 ≤ c.toNat ∧ ¬ 65 ≤ c.toNat ∧ ¬ 97 ≤ c.toNat := by omega
  simp [isHexDigit, hexValue?, before] at h

/-- The number that digits of a base stand for. -/
def digitsValue (base : Nat) (digits : List Char) : Nat :=
  digits.foldl (fun n c => n * base + (hexValue? c).getD 0) 0

/-- Take a sign off a text; a missing one means plus. -/
def splitSign : List Char → Bool × List Char
  | '-' :: rest => (true, rest)
  | '+' :: rest => (false, rest)
  | rest => (false, rest)

/-- The text after the mark `0x` of base sixteen, which counts as a mark only before a
digit. -/
def afterHexMark? : List Char → Option (List Char)
  | '0' :: x :: d :: rest =>
    if (x = 'x' ∨ x = 'X') ∧ isHexDigit d then some (d :: rest) else none
  | _ => none

/-- The base of the digits at the head of a text, and the text from the digits on. -/
def Radix.resolve (r : Radix) (text : List Char) : Nat × List Char :=
  match r, afterHexMark? text with
  | .decimal, _ => (10, text)
  | .hexadecimal, some digits => (16, digits)
  | .hexadecimal, none => (16, text)
  | .marked, some digits => (16, digits)
  | .marked, none => (if text.head? = some '0' then 8 else 10, text)

namespace Numeral

/-- The numeral at the head of a text; there is none unless there is a digit. -/
def read? (r : Radix) (text : List Char) : Option Numeral :=
  let (negative, unsigned) := splitSign (text.dropWhile isBlank)
  let (base, marked) := r.resolve unsigned
  let digits := marked.takeWhile (isDigitOf base)
  if digits.isEmpty then none
  else
    some
      { negative := negative
        magnitude := digitsValue base digits
        rest := marked.dropWhile (isDigitOf base) }

/-- The number that a numeral stands for. -/
def value (n : Numeral) : Int := if n.negative then -n.magnitude else n.magnitude

end Numeral

/-! ### Numbers within bounds -/

/-- The number that a whole text stands for, if it lies within 64 bits with a sign. -/
def signedNumber? (text : List Char) : Option Int :=
  match Numeral.read? .marked text with
  | some n =>
    if n.rest.isEmpty ∧ -0x8000000000000000 ≤ n.value ∧ n.value < 0x8000000000000000 then
      some n.value
    else none
  | none => none

/-- The number nearest to a given one within 32 bits with a sign. -/
def clampTo32 (n : Int) : Int := max (-0x80000000) (min n 0x7FFFFFFF)

/-- The decimal number that a word begins with, as near as 32 bits allow; a word that does
not begin with one stands for zero. -/
def operandNumber (word : List Char) : Int :=
  match Numeral.read? .decimal word with
  | some n => clampTo32 n.value
  | none => 0

/-- The number that a whole text of base sixteen stands for, if it is at most a bound.  The
text begins with a digit, so it has neither a sign nor blanks. -/
def hexNumber? (text : List Char) (bound : Nat) : Option Nat :=
  match text.head?, Numeral.read? .hexadecimal text with
  | some c, some n =>
    if isHexDigit c ∧ n.rest.isEmpty ∧ n.magnitude ≤ bound then some n.magnitude else none
  | _, _ => none

/-- Such a number is at most the bound. -/
theorem hexNumber?_le {text : List Char} {bound n : Nat} (h : hexNumber? text bound = some n) :
    n ≤ bound := by
  unfold hexNumber? at h
  split at h
  · rw [Option.ite_none_right_eq_some] at h
    obtain ⟨⟨-, -, small⟩, same⟩ := h
    cases same
    exact small
  · cases h

/-- The memory cell named by the number of base sixteen that a word begins with.  A number
of more than 64 bits names none; a negative one counts back from the end of the memory. -/
def foldedAddress? (word : List Char) : Option Address :=
  match Numeral.read? .hexadecimal word with
  | some n =>
    if n.magnitude < 0x10000000000000000 then some (Address.wrap (n.value % 4096).toNat) else none
  | none => none

end Chip8
