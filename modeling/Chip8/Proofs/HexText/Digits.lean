import Chip8.Rom.HexText

namespace Chip8

/-!
# What pieces of hex text denote

A piece of hex text denotes bytes: one digit a byte below sixteen, and otherwise each two digits a
byte, the high one first.  Here that is said of the digits and the bytes, without a reader.

* `HexText.WritesPairs`, `HexText.Denotes`, `HexText.DenotesAll` — the digits of some bytes, a piece
  for some bytes, and pieces one after another.
* `HexText.Good` — the pieces that denote anything: `HexText.Denotes.good` and
  `HexText.exists_denotes`.
* `HexText.bytesOf_of_denotes`, `HexText.bytesOf_of_not_good` — what a piece is read as, or what is
  found wrong with it.
* `HexText.collect_of_denotesAll`, `HexText.collect_of_not_good` — the same for pieces one after
  another, up to the first one that is wrong.
* `HexText.read_of_denotesAll`, `HexText.read_of_not_good` — the same for a whole text.
-/

namespace HexText

/-- Digits that write bytes two by two, the high digit of each byte first. -/
inductive WritesPairs : List Char → List UInt8 → Prop where
  /-- No digits write no bytes. -/
  | nil : WritesPairs [] []
  /-- Two digits write one more byte. -/
  | cons {high low : Char} {byte : UInt8} {digits : List Char} {bytes : List UInt8}
      (first : hexValue? high = some (byte.toNat / 16))
      (second : hexValue? low = some (byte.toNat % 16)) (rest : WritesPairs digits bytes) :
      WritesPairs (high :: low :: digits) (byte :: bytes)

/-- A piece that denotes bytes. -/
inductive Denotes : List Char → List UInt8 → Prop where
  /-- A digit alone denotes a byte below sixteen. -/
  | digit {d : Char} {byte : UInt8} (value : hexValue? d = some byte.toNat) : Denotes [d] [byte]
  /-- Any other piece denotes a byte for each two of its digits. -/
  | pairs {piece : List Char} {bytes : List UInt8} (nonempty : piece ≠ [])
      (digits : WritesPairs piece bytes) : Denotes piece bytes

/-- Pieces that denote bytes one after another. -/
inductive DenotesAll : List (List Char) → List UInt8 → Prop where
  /-- No pieces denote no bytes. -/
  | nil : DenotesAll [] []
  /-- One more piece denotes its bytes before those of the others. -/
  | cons {piece : List Char} {pieces : List (List Char)} {block bytes : List UInt8}
      (first : Denotes piece block) (rest : DenotesAll pieces bytes) :
      DenotesAll (piece :: pieces) (block ++ bytes)

/-- Whether a piece is good: all of it are digits, and there is one of them or an even number. -/
def Good (piece : List Char) : Prop :=
  (∀ c ∈ piece, isHexDigit c = true) ∧ (piece.length = 1 ∨ piece.length % 2 = 0)

instance (piece : List Char) : Decidable (Good piece) :=
  -- only the characters of the piece are looked at, not all that there are
  haveI : Decidable (∀ c ∈ piece, isHexDigit c = true) := List.decidableBAll _ piece
  inferInstanceAs (Decidable (_ ∧ _))

variable {piece digits : List Char} {bytes : List UInt8}

/-! ### Digits two by two -/

theorem digit_of_hexValue? {c : Char} {v : Nat} (h : hexValue? c = some v) : digit c = v := by
  simp [digit, h]

theorem isHexDigit_of_hexValue? {c : Char} {v : Nat} (h : hexValue? c = some v) :
    isHexDigit c = true := by
  simp [isHexDigit, h]

/-- Digits are read two by two as they are written. -/
theorem WritesPairs.pairs_eq (h : WritesPairs digits bytes) : HexText.pairs digits = bytes := by
  induction h with
  | nil => rfl
  | @cons high low byte digits bytes first second _ ih =>
    have both : byte.toNat / 16 * 16 + byte.toNat % 16 = byte.toNat := by omega
    rw [HexText.pairs, ih, digit_of_hexValue? first, digit_of_hexValue? second, both,
      UInt8.ofNat_toNat]

/-- There are two digits for each byte, and nothing else. -/
theorem WritesPairs.good (h : WritesPairs digits bytes) :
    (∀ c ∈ digits, isHexDigit c = true) ∧ digits.length = 2 * bytes.length := by
  induction h with
  | nil => simp
  | cons first second _ ih =>
    obtain ⟨all, length⟩ := ih
    have high := isHexDigit_of_hexValue? first
    have low := isHexDigit_of_hexValue? second
    refine ⟨by simpa [high, low] using all, ?_⟩
    simp only [List.length_cons, length]
    omega

/-- An even number of digits write the bytes that they are read as. -/
theorem writesPairs_pairs (all : ∀ c ∈ digits, isHexDigit c = true)
    (even : digits.length % 2 = 0) : WritesPairs digits (HexText.pairs digits) := by
  induction digits using HexText.pairs.induct with
  | case1 high low rest ih =>
    obtain ⟨h, first⟩ := Option.isSome_iff_exists.mp (all high (by simp))
    obtain ⟨l, second⟩ := Option.isSome_iff_exists.mp (all low (by simp))
    have := hexValue?_lt first
    have := hexValue?_lt second
    -- two values below sixteen are the two digits of the byte that is made of them
    have byte : (UInt8.ofNat (h * 16 + l)).toNat = h * 16 + l := by
      rw [UInt8.toNat_ofNat']
      omega
    have later : WritesPairs rest (HexText.pairs rest) := by
      apply ih
      · intro c mem
        exact all c (by simp [mem])
      · simp only [List.length_cons] at even
        omega
    rw [HexText.pairs, digit_of_hexValue? first, digit_of_hexValue? second]
    refine .cons ?_ ?_ later
    · rw [byte, first]
      congr 1
      omega
    · rw [byte, second]
      congr 1
      omega
  | case2 digits short =>
    cases digits with
    | nil => exact .nil
    | cons d rest =>
      cases rest with
      | nil => simp at even
      | cons d' rest => exact absurd rfl (short d d' rest)

/-- Any bytes can be written. -/
theorem exists_writesPairs (bytes : List UInt8) : ∃ digits, WritesPairs digits bytes := by
  induction bytes with
  | nil => exact ⟨[], .nil⟩
  | cons byte bytes ih =>
    obtain ⟨digits, later⟩ := ih
    have := byte.toNat_lt
    exact ⟨_, .cons (hexValue?_hexDigit (by omega)) (hexValue?_hexDigit (by omega)) later⟩

/-! ### Pieces -/

/-- A piece that denotes bytes is good. -/
theorem Denotes.good (h : Denotes piece bytes) : Good piece := by
  cases h with
  | digit value => exact ⟨by simpa using isHexDigit_of_hexValue? value, Or.inl rfl⟩
  | pairs _ digits =>
    obtain ⟨all, length⟩ := digits.good
    exact ⟨all, Or.inr (by omega)⟩

/-- There is no denoting without a digit. -/
theorem Denotes.piece_ne_nil (h : Denotes piece bytes) : piece ≠ [] := by
  cases h with
  | digit => simp
  | pairs nonempty => exact nonempty

/-- A piece denotes at least one byte. -/
theorem Denotes.ne_nil (h : Denotes piece bytes) : bytes ≠ [] := by
  cases h with
  | digit => simp
  | pairs nonempty digits =>
    rintro rfl
    cases digits
    exact nonempty rfl

/-- A good piece denotes something. -/
theorem exists_denotes (nonempty : piece ≠ []) (good : Good piece) :
    ∃ bytes, Denotes piece bytes := by
  obtain ⟨all, alone | even⟩ := good
  · obtain ⟨d, rfl⟩ := List.length_eq_one_iff.mp alone
    obtain ⟨v, value⟩ := Option.isSome_iff_exists.mp (all d (by simp))
    have := hexValue?_lt value
    refine ⟨[UInt8.ofNat v], .digit ?_⟩
    rw [value, UInt8.toNat_ofNat']
    congr 1
    omega
  · exact ⟨_, .pairs nonempty (writesPairs_pairs all even)⟩

/-- A piece is read as what it denotes. -/
theorem bytesOf_of_denotes (h : Denotes piece bytes) : bytesOf piece = .ok bytes := by
  have all : piece.all isHexDigit = true := List.all_eq_true.mpr h.good.1
  cases h with
  | digit value =>
    simp [bytesOf, isHexDigit_of_hexValue? value, digit_of_hexValue? value]
  | pairs nonempty digits =>
    have even : piece.length % 2 = 0 := by
      rw [digits.good.2]
      omega
    rw [bytesOf, all]
    · rw [Bool.not_true, if_neg Bool.false_ne_true, if_pos even, digits.pairs_eq]
    · rintro d rfl
      cases even

/-- In a piece that is not good, something is no digit, or else the number of digits is wrong. -/
theorem bytesOf_of_not_good (h : ¬ Good piece) :
    bytesOf piece = .error (if piece.all isHexDigit then .outOfRange else .notHex) := by
  cases all : piece.all isHexDigit with
  | false => simp [bytesOf, all]
  | true =>
    have odd : ¬ (piece.length = 1 ∨ piece.length % 2 = 0) :=
      fun length => h ⟨List.all_eq_true.mp all, length⟩
    rw [not_or] at odd
    rw [bytesOf, all]
    · rw [Bool.not_true, if_neg Bool.false_ne_true, if_neg odd.2, if_pos rfl]
    · rintro d rfl
      exact odd.1 rfl

/-! ### Pieces one after another -/

variable {before after : List (List Char × Nat)}

/-- Good pieces denote something one after another. -/
theorem exists_denotesAll {pieces : List (List Char)} (nonempty : ∀ p ∈ pieces, p ≠ [])
    (good : ∀ p ∈ pieces, Good p) : ∃ bytes, DenotesAll pieces bytes := by
  induction pieces with
  | nil => exact ⟨[], .nil⟩
  | cons piece pieces ih =>
    obtain ⟨block, first⟩ := exists_denotes (nonempty piece (by simp)) (good piece (by simp))
    obtain ⟨bytes, rest⟩ := ih (fun p mem => nonempty p (by simp [mem]))
      fun p mem => good p (by simp [mem])
    exact ⟨block ++ bytes, .cons first rest⟩

/-- Only no pieces at all denote no bytes. -/
theorem DenotesAll.eq_nil {pieces : List (List Char)} (h : DenotesAll pieces []) :
    pieces = [] := by
  generalize none : ([] : List UInt8) = bytes at h
  cases h with
  | nil => rfl
  | cons first _ => exact absurd (List.append_eq_nil_iff.mp none.symm).1 first.ne_nil

/-- Pieces that denote bytes are read as these, and then come the others. -/
theorem collect_of_denotesAll (h : DenotesAll (before.map Prod.fst) bytes) :
    collect (before ++ after) = (bytes ++ (collect after).1, (collect after).2) := by
  induction before generalizing bytes with
  | nil =>
    cases h
    rfl
  | cons p before ih =>
    cases h with
    | cons first rest =>
      rw [List.cons_append, collect, bytesOf_of_denotes first, ih rest]
      simp

/-- The first piece that is not good ends the reading. -/
theorem collect_of_not_good {line : Nat} (h : ¬ Good piece) :
    collect ((piece, line) :: after) =
      ([], some (if piece.all isHexDigit then .outOfRange piece line else .notHex piece line)) := by
  rw [collect, bytesOf_of_not_good h]
  cases piece.all isHexDigit <;> rfl

/-! ### Whole texts -/

variable {text : List Char}

/-- A text whose pieces denote bytes is read as these. -/
theorem read_of_denotesAll (h : DenotesAll ((pieces text).map Prod.fst) bytes)
    (nonempty : bytes ≠ []) : read text = (bytes, none) := by
  have all := @collect_of_denotesAll bytes (pieces text) [] h
  rw [List.append_nil, collect, List.append_nil] at all
  rw [read, all]
  cases bytes with
  | nil => exact absurd rfl nonempty
  | cons byte bytes => rfl

/-- A text whose pieces denote no bytes is wrong as well. -/
theorem read_of_denotesAll_nil (h : DenotesAll ((pieces text).map Prod.fst) []) :
    read text = ([], some .noBytes) := by
  have none : pieces text = [] := List.map_eq_nil_iff.mp h.eq_nil
  rw [read, none]
  rfl

/-- A text is read up to the first piece that is not good. -/
theorem read_of_not_good {line : Nat} (cut : pieces text = before ++ (piece, line) :: after)
    (h : DenotesAll (before.map Prod.fst) bytes) (bad : ¬ Good piece) :
    read text =
      (bytes,
        some (if piece.all isHexDigit then .outOfRange piece line else .notHex piece line)) := by
  rw [read, cut, collect_of_denotesAll h, collect_of_not_good bad, List.append_nil]
  cases bytes <;> rfl

end HexText

end Chip8
