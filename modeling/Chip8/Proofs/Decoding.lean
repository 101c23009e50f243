import Chip8.Instruction.Form

namespace Chip8

/-!
# Words of single instructions

Most of what a machine does depends on its word only through the form of the instruction.
For the forms that touch the call stack or end in a wait, the word itself can be told:

* `decode_eq_ret_iff`, `decode_eq_clear_iff` — one word returns, and one blanks the display.
* `exists_decode_eq_call_iff` — the words that call are those with first digit `2`.
* `toNat_of_decode_eq_awaitKey` — the words that wait for a key.

The digits of a written word are the group and the operands that it has been written with:

* `group_wordOfTarget`, `mod_wordOfTarget`, `registerX_wordOfPair`, … — one digit, or some digits,
  of a word.
* `decode_encode`, `decode_of_toNat_eq` — so an instruction that is no fault can be read off the
  word that it is written as; `decode_of_toNat_eq_awaitKey` and `decode_of_toNat_eq_draw` do so for
  the words that wait for a key and for those that draw a sprite.

Where an instruction names registers, they are the second and the third digit of its word:

* `Instruction.first?`, `Instruction.second?` — the registers that an instruction names.
* `registerX_of_first?`, `registerY_of_second?` — they are the digits.
-/

/-- A word is the one that its instruction is written as. -/
theorem eq_encode_of_decode {w : UInt16} {i : Instruction} (h : decode w = i) :
    w = i.encode := by
  rw [← h, encode_decode]

/-- Exactly one word returns from a subroutine. -/
theorem decode_eq_ret_iff (w : UInt16) : decode w = .ret ↔ w = 0x00EE := by
  constructor
  · intro h
    exact eq_encode_of_decode h
  · rintro rfl
    rfl

/-- Exactly one word blanks the display. -/
theorem decode_eq_clear_iff (w : UInt16) : decode w = .clear ↔ w = 0x00E0 := by
  constructor
  · intro h
    exact eq_encode_of_decode h
  · rintro rfl
    rfl

/-- A word with first digit `2` calls the subroutine at its last three digits. -/
theorem decode_of_first_digit_two {w : UInt16} (h : w.toNat / 4096 = 2) :
    decode w = .call (target w) := by
  simp only [decode, h]

/-- The words that call a subroutine are those with first digit `2`. -/
theorem exists_decode_eq_call_iff (w : UInt16) :
    (∃ t, decode w = .call t) ↔ w.toNat / 4096 = 2 := by
  constructor
  · rintro ⟨t, h⟩
    rw [eq_encode_of_decode h, Instruction.encode, toNat_wordOfTarget (by decide)]
    have := t.isLt
    omega
  · intro h
    exact ⟨target w, decode_of_first_digit_two h⟩

/-- A word that waits for a key names its register by the second digit. -/
theorem toNat_of_decode_eq_awaitKey {w : UInt16} {x : Register} (h : decode w = .awaitKey x) :
    w.toNat = 0xF00A + x.val * 256 := by
  rw [eq_encode_of_decode h, Instruction.encode, toNat_wordOfByte (by decide)]
  simp only [UInt8.reduceToNat]
  omega

/-! ### Digits of written words -/

section Digits

variable {group : Nat} (h : group < 16) (x y : Register) (byte : UInt8) (last : Fin 16)
  (t : Address)

include h

theorem group_wordOfTarget : (wordOfTarget group t).toNat / 0x1000 = group := by
  have := t.isLt
  rw [toNat_wordOfTarget h]
  omega

theorem group_wordOfByte : (wordOfByte group x byte).toNat / 0x1000 = group := by
  have := x.isLt
  have := byte.toNat_lt
  rw [toNat_wordOfByte h]
  omega

theorem group_wordOfPair : (wordOfPair group x y last).toNat / 0x1000 = group := by
  have := x.isLt
  have := y.isLt
  have := last.isLt
  rw [toNat_wordOfPair h]
  omega

theorem mod_wordOfTarget : (wordOfTarget group t).toNat % 0x1000 = t.val := by
  have := t.isLt
  rw [toNat_wordOfTarget h]
  omega

theorem mod_wordOfByte : (wordOfByte group x byte).toNat % 0x100 = byte.toNat := by
  have := byte.toNat_lt
  rw [toNat_wordOfByte h]
  omega

theorem mod_wordOfPair : (wordOfPair group x y last).toNat % 0x10 = last.val := by
  have := last.isLt
  rw [toNat_wordOfPair h]
  omega

theorem target_wordOfTarget : target (wordOfTarget group t) = t := by
  apply Fin.ext
  rw [val_target, mod_wordOfTarget h]

theorem lowByte_wordOfByte : lowByte (wordOfByte group x byte) = byte := by
  apply UInt8.toNat_inj.mp
  rw [toNat_lowByte, mod_wordOfByte h]

theorem lastDigit_wordOfPair : lastDigit (wordOfPair group x y last) = last := by
  apply Fin.ext
  rw [val_lastDigit, mod_wordOfPair h]

theorem registerX_wordOfTarget :
    registerX (wordOfTarget group t) = Fin.ofNat 16 (t.val / 256) := by
  apply Fin.ext
  rw [val_registerX, toNat_wordOfTarget h, Fin.val_ofNat]
  omega

theorem registerX_wordOfByte : registerX (wordOfByte group x byte) = x := by
  have := x.isLt
  have := byte.toNat_lt
  apply Fin.ext
  rw [val_registerX, toNat_wordOfByte h]
  omega

theorem registerX_wordOfPair : registerX (wordOfPair group x y last) = x := by
  have := x.isLt
  have := y.isLt
  have := last.isLt
  apply Fin.ext
  rw [val_registerX, toNat_wordOfPair h]
  omega

theorem registerY_wordOfPair : registerY (wordOfPair group x y last) = y := by
  have := y.isLt
  have := last.isLt
  apply Fin.ext
  rw [val_registerY, toNat_wordOfPair h]
  omega

end Digits

/-- Reading what was written gives the instruction back, unless it is one that faults: the word of
such an instruction may be that of another one. -/
theorem decode_encode {i : Instruction} (native : i.form ≠ .native) (data : i.form ≠ .data) :
    decode i.encode = i := by
  cases i
  case native => exact absurd rfl native
  case data => exact absurd rfl data
  case clear | ret => rfl
  -- the last digit of these words is a number of its own, not an operand
  case skipIfEqual | skipUnlessEqual | copy | or | and | xor | add | sub | shiftRight | subFrom |
      shiftLeft =>
    simp only [Instruction.encode, decode, decodeArithmetic, group_wordOfPair, mod_wordOfPair,
      registerX_wordOfPair, registerY_wordOfPair, Nat.reduceLT]
    rfl
  all_goals
    simp only [Instruction.encode, decode, decodeTransfer, group_wordOfTarget, group_wordOfByte,
      group_wordOfPair, mod_wordOfByte, target_wordOfTarget, lowByte_wordOfByte,
      lastDigit_wordOfPair, registerX_wordOfByte, registerX_wordOfPair, registerY_wordOfPair,
      UInt8.reduceToNat, Nat.reduceLT]

/-- So a word with the number of a written one stands for the instruction that was written. -/
theorem decode_of_toNat_eq {w : UInt16} {i : Instruction} (native : i.form ≠ .native)
    (data : i.form ≠ .data) (h : w.toNat = i.encode.toNat) : decode w = i := by
  rw [UInt16.toNat_inj.mp h, decode_encode native data]

/-- A word that names its register by the second digit and ends in `0A` waits for a key. -/
theorem decode_of_toNat_eq_awaitKey {w : UInt16} {x : Register}
    (h : w.toNat = 0xF00A + x.val * 256) : decode w = .awaitKey x := by
  have number : (wordOfByte 0xF x 0x0A).toNat = 0xF000 + x.val * 256 + 0x0A :=
    toNat_wordOfByte (by decide) x 0x0A
  have same : w.toNat = (wordOfByte 0xF x 0x0A).toNat := by omega
  exact decode_of_toNat_eq nofun nofun same

/-- A word with first digit `D` draws a sprite at the place that its next two digits name, with as
many rows as its last digit says. -/
theorem decode_of_toNat_eq_draw {w : UInt16} {x y : Register} {rows : Fin 16}
    (h : w.toNat = 0xD000 + x.val * 256 + y.val * 16 + rows.val) : decode w = .draw x y rows := by
  have number : (wordOfPair 0xD x y rows).toNat = _ := toNat_wordOfPair (by decide) x y rows
  exact decode_of_toNat_eq nofun nofun (h.trans number.symm)

/-! ### Registers that an instruction names -/

namespace Instruction

/-- The register that the second digit of an instruction's word names. -/
def first? : Instruction → Option Register
  | skipIfByte x _ | skipUnlessByte x _ | setByte x _ | addByte x _ | random x _ => some x
  | skipIfEqual x _ | skipUnlessEqual x _ | copy x _ | or x _ | and x _ | xor x _ => some x
  | add x _ | sub x _ | shiftRight x _ | subFrom x _ | shiftLeft x _ | draw x _ _ => some x
  | jumpOffset base => some (Fin.ofNat 16 (base.val / 256))
  | skipIfKey x | skipUnlessKey x | readDelay x | awaitKey x | setDelay x | setSound x => some x
  | addIndex x | glyph x | decimal x | store x | load x => some x
  | _ => none

/-- The register that the third digit of an instruction's word names. -/
def second? : Instruction → Option Register
  | skipIfEqual _ y | skipUnlessEqual _ y | copy _ y | or _ y | and _ y | xor _ y => some y
  | add _ y | sub _ y | shiftRight _ y | subFrom _ y | shiftLeft _ y | draw _ y _ => some y
  | _ => none

end Instruction

/-- The first register of an instruction is the second digit of its word. -/
theorem registerX_of_first? {w : UInt16} {x : Register} (h : (decode w).first? = some x) :
    registerX w = x := by
  -- a word is what its instruction is written as, so the digit can be read off the writing
  rw [← encode_decode w]
  generalize decode w = i at h ⊢
  cases i <;> simp only [Instruction.first?, reduceCtorEq, Option.some.injEq] at h
  all_goals
    subst h
    simp only [Instruction.encode, registerX_wordOfTarget, registerX_wordOfByte,
      registerX_wordOfPair, Nat.reduceLT]

/-- The second register of an instruction is the third digit of its word. -/
theorem registerY_of_second? {w : UInt16} {y : Register} (h : (decode w).second? = some y) :
    registerY w = y := by
  rw [← encode_decode w]
  generalize decode w = i at h ⊢
  cases i <;> simp only [Instruction.second?, reduceCtorEq, Option.some.injEq] at h
  all_goals
    subst h
    simp only [Instruction.encode, registerY_wordOfPair, Nat.reduceLT]

end Chip8
