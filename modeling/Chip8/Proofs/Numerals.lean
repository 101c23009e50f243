import Chip8.Text.Numeral
import Mathlib.Data.List.Basic
import Mathlib.Data.List.Induction
import Mathlib.Data.List.TakeWhile
import Mathlib.Data.Nat.Digits.Defs

namespace Chip8

/-!
# What numerals denote

A numeral whose base is told by a mark is blanks, a sign, and digits: after `0x` those of base
sixteen, after any other `0` those of base eight, and otherwise those of base ten.  Here that is a
relation between texts and numbers, and texts are read as the numbers that they denote.

* `Numeral.placeValue` — what digits denote by their places; `Numeral.digitsValue_eq` says that
  they are read as that.
* `Numeral.Sign`, `Numeral.Marked`, `Numeral.Denotes` — a sign, digits with the mark of their base,
  and a whole numeral.
* `Numeral.marked_iff` — digits are marked just if their base is found and all of them belong to it.
* `signedNumber?_eq_some_iff` — the text of a number, and only that, is read as the number,
  if it lies within 64 bits.
* `Numeral.Hexadecimal` — digits of base sixteen, with or without a mark, and nothing beside them;
  `hex_numerals_read_exactly` says that these are read up to a bound, and no other texts are.
* `digitsValue_hexDigits` — the digits that a number is shown in are read as the number.
* `operandNumber_toString` — the decimal text of a number is read back within 32 bits.
-/

namespace Numeral

/-- The number that digits denote by their places, the last digit counting ones. -/
def placeValue (base : Nat) (digits : List Char) : Nat :=
  Nat.ofDigits base (digits.map fun c => (hexValue? c).getD 0).reverse

/-- A sign; a missing one means plus. -/
inductive Sign : Bool → List Char → Prop where
  /-- No sign. -/
  | absent : Sign false []
  /-- A plus sign. -/
  | plus : Sign false ['+']
  /-- A minus sign. -/
  | minus : Sign true ['-']

/-- Digits whose base is told by a mark. -/
inductive Marked : Nat → List Char → Prop where
  /-- The digits after `0x` are those of base sixteen. -/
  | hexadecimal {x : Char} {digits : List Char} (mark : x = 'x' ∨ x = 'X') (nonempty : digits ≠ [])
      (all : ∀ c ∈ digits, isDigitOf 16 c = true) :
      Marked (placeValue 16 digits) ('0' :: x :: digits)
  /-- The digits after another `0` are those of base eight; there need not be any. -/
  | octal {digits : List Char} (all : ∀ c ∈ digits, isDigitOf 8 c = true) :
      Marked (placeValue 8 digits) ('0' :: digits)
  /-- Without a mark the digits are those of base ten. -/
  | decimal {d : Char} {digits : List Char} (unmarked : d ≠ '0')
      (all : ∀ c ∈ d :: digits, isDigitOf 10 c = true) :
      Marked (placeValue 10 (d :: digits)) (d :: digits)

/-- A whole text that denotes a number. -/
inductive Denotes : List Char → Int → Prop where
  /-- Blanks, a sign and digits. -/
  | whole {blanks sign digits : List Char} {negative : Bool} {magnitude : Nat}
      (before : ∀ c ∈ blanks, isBlank c = true) (signed : Sign negative sign)
      (marked : Marked magnitude digits) :
      Denotes (blanks ++ (sign ++ digits)) (if negative then -magnitude else magnitude)

/-- A whole text of digits of base sixteen, before which the mark may stand or be left out. -/
inductive Hexadecimal : Nat → List Char → Prop where
  /-- Digits alone. -/
  | bare {digits : List Char} (nonempty : digits ≠ [])
      (all : ∀ c ∈ digits, isDigitOf 16 c = true) :
      Hexadecimal (placeValue 16 digits) digits
  /-- Digits after `0x`. -/
  | marked {x : Char} {digits : List Char} (mark : x = 'x' ∨ x = 'X') (nonempty : digits ≠ [])
      (all : ∀ c ∈ digits, isDigitOf 16 c = true) :
      Hexadecimal (placeValue 16 digits) ('0' :: x :: digits)

variable {text digits rest sign : List Char} {base magnitude : Nat} {negative : Bool} {n : Int}

/-! ### Digits -/

/-- Digits are read as what they denote by their places. -/
theorem digitsValue_eq (base : Nat) (digits : List Char) :
    digitsValue base digits = placeValue base digits := by
  induction digits using List.reverseRecOn with
  | nil => rfl
  | append_singleton digits d ih =>
    have read : digitsValue base (digits ++ [d]) =
        digitsValue base digits * base + (hexValue? d).getD 0 := by
      simp [digitsValue]
    have place : placeValue base (digits ++ [d]) =
        (hexValue? d).getD 0 + base * placeValue base digits := by
      simp [placeValue, Nat.ofDigits_cons]
    rw [read, place, ih, Nat.mul_comm, Nat.add_comm]

theorem isHexDigit_eq (c : Char) : isHexDigit c = isDigitOf 16 c := by
  rw [isHexDigit, isDigitOf]
  cases value : hexValue? c with
  | none => rfl
  | some v => simpa using hexValue?_lt value

/-- A digit of any base is one of base sixteen. -/
theorem isHexDigit_of_isDigitOf {c : Char} (h : isDigitOf base c = true) :
    isHexDigit c = true := by
  rw [isHexDigit]
  unfold isDigitOf at h
  cases value : hexValue? c with
  | none => simp [value] at h
  | some v => rfl

/-- A digit of any base is neither a blank nor a sign. -/
theorem not_blank_of_isDigitOf {c : Char} (h : isDigitOf base c = true) :
    isBlank c = false ∧ c ≠ '+' ∧ c ≠ '-' := by
  have digit := isHexDigit_of_isDigitOf h
  refine ⟨isBlank_of_isHexDigit digit, ?_, ?_⟩
  · rintro rfl
    cases digit
  · rintro rfl
    cases digit

/-- Digits with the mark of their base begin with a digit. -/
theorem Marked.head (h : Marked magnitude digits) :
    ∃ d rest base, digits = d :: rest ∧ isDigitOf base d = true := by
  cases h with
  | hexadecimal => exact ⟨'0', _, 16, rfl, rfl⟩
  | octal => exact ⟨'0', _, 8, rfl, rfl⟩
  | @decimal d rest _ all => exact ⟨d, rest, 10, rfl, all d (by simp)⟩

/-- So do those of base sixteen. -/
theorem Hexadecimal.head (h : Hexadecimal magnitude text) :
    ∃ d rest, text = d :: rest ∧ isHexDigit d = true := by
  cases h with
  | bare nonempty all =>
    obtain ⟨d, rest, rfl⟩ := List.exists_cons_of_ne_nil nonempty
    refine ⟨d, rest, rfl, ?_⟩
    rw [isHexDigit_eq]
    exact all d (by simp)
  | marked => exact ⟨'0', _, rfl, rfl⟩

/-! ### Bases -/

/-- After the mark of base sixteen there are digits. -/
theorem afterHexMark?_eq_some_iff :
    afterHexMark? text = some digits ↔
      ∃ x d rest, (x = 'x' ∨ x = 'X') ∧ isHexDigit d = true ∧ digits = d :: rest ∧
        text = '0' :: x :: d :: rest := by
  constructor
  · intro h
    unfold afterHexMark? at h
    split at h
    · next x d rest =>
      split at h
      · next mark =>
        cases h
        exact ⟨x, d, rest, mark.1, mark.2, rfl, rfl⟩
      · cases h
    · cases h
  · rintro ⟨x, d, rest, mark, digit, rfl, rfl⟩
    simp [afterHexMark?, mark, digit]

/-- Digits alone have no mark. -/
theorem afterHexMark?_of_digits (all : ∀ c ∈ text, isDigitOf base c = true) :
    afterHexMark? text = none := by
  rw [Option.eq_none_iff_forall_ne_some]
  intro after h
  obtain ⟨x, d, rest, mark, -, -, rfl⟩ := afterHexMark?_eq_some_iff.mp h
  have digit := all x (by simp)
  rcases mark with rfl | rfl <;> cases digit

theorem resolve_of_hexMark (h : afterHexMark? text = some digits) :
    Radix.marked.resolve text = (16, digits) := by
  simp [Radix.resolve, h]

theorem resolve_of_no_hexMark (h : afterHexMark? text = none) :
    Radix.marked.resolve text = (if text.head? = some '0' then 8 else 10, text) := by
  simp [Radix.resolve, h]

/-- Digits are marked just if their base is found and all of them belong to it. -/
theorem marked_iff :
    Marked magnitude text ↔
      ∃ base digits, Radix.marked.resolve text = (base, digits) ∧ digits ≠ [] ∧
        (∀ c ∈ digits, isDigitOf base c = true) ∧ digitsValue base digits = magnitude := by
  constructor
  · rintro (⟨mark, nonempty, all⟩ | all | ⟨unmarked, all⟩)
    case hexadecimal x digits =>
      obtain ⟨d, rest, rfl⟩ := List.exists_cons_of_ne_nil nonempty
      have digit : isHexDigit d = true := by
        rw [isHexDigit_eq]
        exact all d (by simp)
      have after := afterHexMark?_eq_some_iff.mpr ⟨x, d, rest, mark, digit, rfl, rfl⟩
      exact ⟨16, d :: rest, resolve_of_hexMark after, nonempty, all, digitsValue_eq _ _⟩
    case octal digits =>
      -- the mark is a digit as well, and counts nothing
      have digitsToo : ∀ c ∈ '0' :: digits, isDigitOf 8 c = true := by
        intro c mem
        rcases List.mem_cons.mp mem with rfl | mem
        · rfl
        · exact all c mem
      have noMark := afterHexMark?_of_digits digitsToo
      refine ⟨8, '0' :: digits, resolve_of_no_hexMark noMark, by simp, digitsToo, ?_⟩
      rw [← digitsValue_eq]
      rfl
    case decimal d digits =>
      have noMark := afterHexMark?_of_digits all
      have found : Radix.marked.resolve (d :: digits) = (10, d :: digits) := by
        rw [resolve_of_no_hexMark noMark]
        simp [unmarked]
      exact ⟨10, d :: digits, found, by simp, all, digitsValue_eq _ _⟩
  · rintro ⟨base, digits, found, nonempty, all, rfl⟩
    rw [digitsValue_eq]
    cases after : afterHexMark? text with
    | some hex =>
      rw [resolve_of_hexMark after] at found
      cases found
      obtain ⟨x, d, rest, mark, -, rfl, rfl⟩ := afterHexMark?_eq_some_iff.mp after
      exact .hexadecimal mark nonempty all
    | none =>
      rw [resolve_of_no_hexMark after] at found
      cases found
      obtain ⟨d, rest, rfl⟩ := List.exists_cons_of_ne_nil nonempty
      by_cases zero : d = '0'
      · subst zero
        have octal := Marked.octal fun c mem => all c (List.mem_cons_of_mem '0' mem)
        rw [← digitsValue_eq] at octal ⊢
        exact octal
      · have base : (if (d :: rest).head? = some '0' then 8 else 10) = 10 := by
          simp [zero]
        rw [base] at all ⊢
        exact .decimal zero all

/-- Base sixteen is found with a mark and without one. -/
theorem resolve_hexadecimal (text : List Char) :
    Radix.hexadecimal.resolve text = (16, (afterHexMark? text).getD text) := by
  unfold Radix.resolve
  cases afterHexMark? text with
  | none => rfl
  | some digits => rfl

/-- A text is one of base sixteen just if it is digits once the mark is taken off. -/
theorem hexadecimal_iff :
    Hexadecimal magnitude text ↔
      (afterHexMark? text).getD text ≠ [] ∧
      (∀ c ∈ (afterHexMark? text).getD text, isDigitOf 16 c = true) ∧
      digitsValue 16 ((afterHexMark? text).getD text) = magnitude := by
  constructor
  · rintro (⟨nonempty, all⟩ | ⟨mark, nonempty, all⟩)
    case bare =>
      rw [afterHexMark?_of_digits all]
      exact ⟨nonempty, all, digitsValue_eq 16 text⟩
    case marked x digits =>
      obtain ⟨d, rest, rfl⟩ := List.exists_cons_of_ne_nil nonempty
      have digit : isHexDigit d = true := by
        rw [isHexDigit_eq]
        exact all d (by simp)
      rw [afterHexMark?_eq_some_iff.mpr ⟨x, d, rest, mark, digit, rfl, rfl⟩]
      exact ⟨nonempty, all, digitsValue_eq 16 (d :: rest)⟩
  · rintro ⟨nonempty, all, rfl⟩
    rw [digitsValue_eq]
    cases after : afterHexMark? text with
    | some digits =>
      rw [after] at nonempty all
      obtain ⟨x, d, rest, mark, -, rfl, rfl⟩ := afterHexMark?_eq_some_iff.mp after
      exact .marked mark nonempty all
    | none =>
      rw [after] at nonempty all
      exact .bare nonempty all

/-! ### Whole numerals -/

/-- A digit is no sign, and has no blanks before it. -/
theorem splitSign_of_digit {d : Char} (digit : isDigitOf base d = true) (rest : List Char) :
    splitSign ((d :: rest).dropWhile isBlank) = (false, d :: rest) := by
  obtain ⟨blank, plus, minus⟩ := not_blank_of_isDigitOf digit
  simp [splitSign, blank, plus, minus]

/-- A sign is taken off. -/
theorem splitSign_append (h : Sign negative sign) (marked : Marked magnitude digits) :
    splitSign (sign ++ digits) = (negative, digits) := by
  obtain ⟨d, rest, base, rfl, digit⟩ := marked.head
  obtain ⟨-, plus, minus⟩ := not_blank_of_isDigitOf digit
  cases h with
  | absent => simp [splitSign, plus, minus]
  | plus => rfl
  | minus => rfl

/-- What is taken off is a sign. -/
theorem exists_sign (text : List Char) :
    ∃ sign, Sign (splitSign text).1 sign ∧ text = sign ++ (splitSign text).2 := by
  unfold splitSign
  split
  · exact ⟨['-'], .minus, rfl⟩
  · exact ⟨['+'], .plus, rfl⟩
  · exact ⟨[], .absent, rfl⟩

/-- The blanks before a sign and digits are dropped, and nothing else. -/
theorem dropWhile_blanks {blanks : List Char} (before : ∀ c ∈ blanks, isBlank c = true)
    (h : Sign negative sign) (marked : Marked magnitude digits) :
    (blanks ++ (sign ++ digits)).dropWhile isBlank = sign ++ digits := by
  rw [List.dropWhile_append_of_pos before]
  obtain ⟨d, rest, base, rfl, digit⟩ := marked.head
  have blank := (not_blank_of_isDigitOf digit).1
  cases h with
  | absent => simp [blank]
  | plus => rfl
  | minus => rfl

/-- The numeral at the head of a text, once its sign and its base are found. -/
theorem read?_eq {r : Radix} {unsigned : List Char}
    (signed : splitSign (text.dropWhile isBlank) = (negative, unsigned))
    (found : r.resolve unsigned = (base, digits)) :
    read? r text =
      if (digits.takeWhile (isDigitOf base)).isEmpty then none
      else
        some
          { negative := negative
            magnitude := digitsValue base (digits.takeWhile (isDigitOf base))
            rest := digits.dropWhile (isDigitOf base) } := by
  simp only [read?, signed, found]

/-- A text is read as one numeral, with nothing left, just if it denotes the number. -/
theorem read?_whole_iff :
    (∃ k, read? .marked text = some k ∧ k.rest = [] ∧ k.value = n) ↔ Denotes text n := by
  constructor
  · rintro ⟨k, read, whole, rfl⟩
    obtain ⟨sign, signed, cut⟩ := exists_sign (text.dropWhile isBlank)
    rcases split : splitSign (text.dropWhile isBlank) with ⟨negative, unsigned⟩
    rcases found : Radix.marked.resolve unsigned with ⟨base, digits⟩
    rw [split] at signed cut
    rw [read?_eq split found, Option.ite_none_left_eq_some] at read
    obtain ⟨nonempty, read⟩ := read
    cases read
    -- nothing is left over, so all digits belong to the base
    have all : ∀ c ∈ digits, isDigitOf base c = true := List.dropWhile_eq_nil_iff.mp whole
    rw [List.takeWhile_eq_self_iff.mpr all] at nonempty ⊢
    have marked : Marked (digitsValue base digits) unsigned :=
      marked_iff.mpr ⟨base, digits, found, by simpa using nonempty, all, rfl⟩
    have blanks : ∀ c ∈ text.takeWhile isBlank, isBlank c = true :=
      fun c mem => List.mem_takeWhile_imp mem
    have denotes := Denotes.whole blanks signed marked
    rw [← cut, List.takeWhile_append_dropWhile] at denotes
    exact denotes
  · rintro ⟨before, signed, marked⟩
    obtain ⟨base, digits, found, nonempty, all, value⟩ := marked_iff.mp marked
    have split := splitSign_append signed marked
    rw [← dropWhile_blanks before signed marked] at split
    have read := read?_eq split found
    rw [List.takeWhile_eq_self_iff.mpr all, List.dropWhile_eq_nil_iff.mpr all, value,
      if_neg (by simpa using nonempty)] at read
    exact ⟨_, read, rfl, rfl⟩

/-- A text that begins with a digit is read as a number of base sixteen, with nothing left, just if
it denotes the number. -/
theorem read?_hexadecimal_iff {d : Char} (digit : isHexDigit d = true) :
    (∃ k, read? .hexadecimal (d :: rest) = some k ∧ k.rest = [] ∧ k.magnitude = magnitude) ↔
      Hexadecimal magnitude (d :: rest) := by
  have signed := splitSign_of_digit ((isHexDigit_eq d).symm.trans digit) rest
  have found := resolve_hexadecimal (d :: rest)
  constructor
  · rintro ⟨k, read, whole, rfl⟩
    rw [read?_eq signed found, Option.ite_none_left_eq_some] at read
    obtain ⟨nonempty, read⟩ := read
    cases read
    have all := List.dropWhile_eq_nil_iff.mp whole
    rw [List.takeWhile_eq_self_iff.mpr all] at nonempty ⊢
    exact hexadecimal_iff.mpr ⟨by simpa using nonempty, all, rfl⟩
  · intro denotes
    obtain ⟨nonempty, all, value⟩ := hexadecimal_iff.mp denotes
    have read := read?_eq signed found
    rw [List.takeWhile_eq_self_iff.mpr all, List.dropWhile_eq_nil_iff.mpr all, value,
      if_neg (by simpa using nonempty)] at read
    exact ⟨_, read, rfl, rfl⟩

end Numeral

/-- A text is read as a number just if it denotes the number and the number lies within 64 bits. -/
theorem signedNumber?_eq_some_iff {text : List Char} {n : Int} :
    signedNumber? text = some n ↔
      Numeral.Denotes text n ∧ -0x8000000000000000 ≤ n ∧ n < 0x8000000000000000 := by
  rw [← Numeral.read?_whole_iff, signedNumber?]
  cases read : Numeral.read? .marked text with
  | none => simp
  | some k =>
    simp only [List.isEmpty_iff, Option.ite_none_right_eq_some, Option.some.injEq]
    constructor
    · rintro ⟨⟨whole, low, high⟩, rfl⟩
      exact ⟨⟨k, rfl, whole, rfl⟩, low, high⟩
    · rintro ⟨⟨k', rfl, whole, rfl⟩, low, high⟩
      exact ⟨⟨whole, low, high⟩, rfl⟩

/-! ### Numerals of base sixteen -/

open Numeral in
/-- A text is read as a number of base sixteen just if it is one, and the number is at most the
bound. -/
theorem hexNumber?_eq_some_iff {text : List Char} {bound n : Nat} :
    hexNumber? text bound = some n ↔ Hexadecimal n text ∧ n ≤ bound := by
  by_cases starts : ∃ d rest, text = d :: rest ∧ isHexDigit d = true
  · obtain ⟨d, rest, rfl, digit⟩ := starts
    rw [← read?_hexadecimal_iff digit, hexNumber?]
    cases read : read? .hexadecimal (d :: rest) with
    | none => simp
    | some k =>
      simp only [List.head?_cons, List.isEmpty_iff, Option.ite_none_right_eq_some,
        Option.some.injEq]
      constructor
      · rintro ⟨⟨-, whole, small⟩, rfl⟩
        exact ⟨⟨k, rfl, whole, rfl⟩, small⟩
      · rintro ⟨⟨k', rfl, whole, rfl⟩, small⟩
        exact ⟨⟨digit, whole, small⟩, rfl⟩
  · -- neither a numeral nor a text that is read begins like this
    have noNumber : ¬ Hexadecimal n text := fun h => starts h.head
    have unread : hexNumber? text bound ≠ some n := by
      intro h
      unfold hexNumber? at h
      split at h
      · next c k first read =>
        obtain ⟨rest, rfl⟩ := List.head?_eq_some_iff.mp first
        rw [Option.ite_none_right_eq_some] at h
        exact starts ⟨c, rest, rfl, h.1.1⟩
      · cases h
    simp [noNumber, unread]

/-- The texts that are read as numbers of base sixteen up to a bound are those that denote one:
digits of base sixteen with or without a mark, however many they are and whatever zeros they begin
with, and neither a sign nor blanks nor anything after them.  What is read is the number denoted.
A text that denotes no number up to the bound is not read at all. -/
theorem hex_numerals_read_exactly (text : List Char) (bound : Nat) :
    (∀ n, hexNumber? text bound = some n ↔ Numeral.Hexadecimal n text ∧ n ≤ bound) ∧
    (hexNumber? text bound = none ↔ ∀ n, Numeral.Hexadecimal n text → bound < n) := by
  refine ⟨fun n => hexNumber?_eq_some_iff, ?_⟩
  rw [Option.eq_none_iff_forall_ne_some]
  apply forall_congr'
  intro n
  rw [ne_eq, hexNumber?_eq_some_iff, not_and, Nat.not_le]

/-- The largest number of 64 bits is read after a mark and a zero; the one after it is not read. -/
example :
    hexNumber? "0x0FFFFFFFFFFFFFFFF".toList 0xFFFFFFFFFFFFFFFF = some 0xFFFFFFFFFFFFFFFF ∧
      hexNumber? "10000000000000000".toList 0xFFFFFFFFFFFFFFFF = none := by
  decide +kernel

/-! ### Numbers shown in base sixteen -/

/-- A number below a power of sixteen needs no more digits than that. -/
theorem hexLength_le {width n : Nat} (positive : 0 < width) (small : n < 16 ^ width) :
    hexLength n ≤ width := by
  have bits : n < 2 ^ (4 * width) := by
    rwa [Nat.pow_mul]
  have log : n.log2 < 4 * width := by
    by_cases zero : n = 0
    · rw [zero, Nat.log2_zero]
      omega
    · exact (Nat.log2_lt zero).mpr bits
  unfold hexLength
  omega

/-- So it is shown in just that many. -/
theorem toList_hex {width n : Nat} (positive : 0 < width) (small : n < 16 ^ width) :
    (hex width n).toList = hexDigits width n := by
  rw [hex, Nat.max_eq_left (hexLength_le positive small), String.toList_ofList]

/-- All digits that a number is shown in are digits of base sixteen. -/
theorem isHexDigit_of_mem_hexDigits {count n : Nat} {c : Char} (mem : c ∈ hexDigits count n) :
    isHexDigit c = true := by
  induction count generalizing n with
  | zero => cases mem
  | succ count ih =>
    rw [hexDigits, List.mem_append, List.mem_singleton] at mem
    rcases mem with before | rfl
    · exact ih before
    · rw [isHexDigit, hexValue?_hexDigit (Nat.mod_lt n (by decide)), Option.isSome_some]

/-- The last digits of a number are read as what is left of it without the others. -/
theorem digitsValue_hexDigits (count n : Nat) :
    digitsValue 16 (hexDigits count n) = n % 16 ^ count := by
  induction count generalizing n with
  | zero => rw [Nat.pow_zero, Nat.mod_one]; rfl
  | succ count ih =>
    have split : digitsValue 16 (hexDigits (count + 1) n) =
        digitsValue 16 (hexDigits count (n / 16)) * 16 + n % 16 := by
      simp [digitsValue, hexDigits, hexValue?_hexDigit (Nat.mod_lt n (show 0 < 16 by decide))]
    rw [split, ih, Nat.pow_succ', Nat.mod_mul]
    omega

/-! ### Numbers shown in base ten -/

/-- A decimal digit stands for how far it is from zero. -/
theorem hexValue?_of_isDigit {c : Char} (h : c.isDigit = true) :
    hexValue? c = some (c.toNat - '0'.toNat) := by
  obtain ⟨low, high⟩ := Char.isDigit_iff_toNat.mp h
  exact if_pos ⟨low, high⟩

/-- A decimal digit is a digit of base ten. -/
theorem isDigitOf_of_isDigit {c : Char} (h : c.isDigit = true) : isDigitOf 10 c = true := by
  have high : c.toNat ≤ 57 := (Char.isDigit_iff_toNat.mp h).2
  rw [isDigitOf, hexValue?_of_isDigit h]
  show decide (c.toNat - 48 < 10) = true
  rw [decide_eq_true_iff]
  omega

/-- The decimal digits of a number are read as the number. -/
theorem digitsValue_toDigits (n : Nat) : digitsValue 10 (Nat.toDigits 10 n) = n := by
  have digits : digitsValue 10 (Nat.toDigits 10 n) = Nat.ofDigitChars 10 (Nat.toDigits 10 n) 0 := by
    rw [digitsValue, Nat.ofDigitChars_eq_foldl]
    apply List.foldl_ext
    intro value c mem
    rw [hexValue?_of_isDigit (Nat.isDigit_of_mem_toDigits (by decide) (by decide) mem),
      Option.getD_some, Nat.mul_comm]
  rw [digits, Nat.ofDigitChars_toDigits (by decide) (by decide)]

theorem isDigitOf_of_mem_toDigits {n : Nat} {c : Char} (mem : c ∈ Nat.toDigits 10 n) :
    isDigitOf 10 c = true :=
  isDigitOf_of_isDigit (Nat.isDigit_of_mem_toDigits (by decide) (by decide) mem)

/-- A number is read back from its decimal text. -/
theorem Numeral.read?_toString (n : Nat) :
    read? .decimal (toString n).toList =
      some { negative := false, magnitude := n, rest := [] } := by
  have text : (toString n).toList = Nat.toDigits 10 n := by
    rw [Nat.toString_eq_ofList_toDigits, String.toList_ofList]
  have all : ∀ c ∈ Nat.toDigits 10 n, isDigitOf 10 c = true := fun c mem =>
    isDigitOf_of_mem_toDigits mem
  have value := digitsValue_toDigits n
  rw [text]
  obtain ⟨d, rest, same⟩ := List.exists_cons_of_ne_nil (Nat.toDigits_ne_nil (n := n) (b := 10))
  rw [same] at all value ⊢
  have signed := splitSign_of_digit (all d (by simp)) rest
  have found : Radix.decimal.resolve (d :: rest) = (10, d :: rest) := rfl
  rw [read?_eq signed found, List.takeWhile_eq_self_iff.mpr all,
    List.dropWhile_eq_nil_iff.mpr all, value]
  rfl

/-- So is an operand, within 32 bits. -/
theorem operandNumber_toString {n : Nat} (small : n ≤ 0x7FFFFFFF) :
    operandNumber (toString n).toList = n := by
  rw [operandNumber, Numeral.read?_toString]
  show max (-0x80000000) (min (n : Int) 0x7FFFFFFF) = n
  omega

end Chip8
