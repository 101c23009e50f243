namespace Chip8

/-!
# Base sixteen

Words, bytes and addresses are shown with upper-case hexadecimal digits, padded with
zeros on the left; digits are read in either case.

* `hexDigits` — a number in a given count of digits.
* `hex` — a number in at least a given count of digits, and in as many as it needs.
* `hexValue?` — what one digit stands for, and `none` for any other character.
-/

/-- The digit for a value below sixteen. -/
def hexDigit (d : Nat) : Char := Char.ofNat (if d < 10 then 48 + d else 55 + d)

/-- The last `count` digits of a number, the most significant first. -/
def hexDigits : Nat → Nat → List Char
  | 0, _ => []
  | count + 1, n => hexDigits count (n / 16) ++ [hexDigit (n % 16)]

@[simp] theorem length_hexDigits (count n : Nat) : (hexDigits count n).length = count := by
  induction count generalizing n with
  | zero => rfl
  | succ count ih => simp [hexDigits, ih]

/-- How many digits a number needs; zero needs one. -/
def hexLength (n : Nat) : Nat := n.log2 / 4 + 1

/-- A number in `width` digits, or in more where it does not fit. -/
def hex (width n : Nat) : String := String.ofList (hexDigits (max width (hexLength n)) n)

/-- A byte in two digits. -/
def hexByte (b : UInt8) : String := hex 2 b.toNat

/-- A word in four digits. -/
def hexWord (w : UInt16) : String := hex 4 w.toNat

/-- What a digit of base sixteen stands for. -/
def hexValue? (c : Char) : Option Nat :=
  let n := c.toNat
  if 48 ≤ n ∧ n ≤ 57 then some (n - 48)
  else if 65 ≤ n ∧ n ≤ 70 then some (n - 55)
  else if 97 ≤ n ∧ n ≤ 102 then some (n - 87)
  else none

/-- Whether a character is a digit of base sixteen. -/
def isHexDigit (c : Char) : Bool := (hexValue? c).isSome

/-- A digit stands for a value below sixteen. -/
theorem hexValue?_lt {c : Char} {v : Nat} (h : hexValue? c = some v) : v < 16 := by
  unfold hexValue? at h
  dsimp only at h
  split at h
  · cases h
    omega
  · split at h
    · cases h
      omega
    · split at h
      · cases h
        omega
      · cases h

/-- A digit reads back as its value. -/
theorem hexValue?_hexDigit {d : Nat} (h : d < 16) : hexValue? (hexDigit d) = some d := by
  have all : ∀ v : Fin 16, hexValue? (hexDigit v.val) = some v.val := by decide
  exact all ⟨d, h⟩

end Chip8
