namespace Chip8

/-!
# Addresses, registers and words

The machine has 4096 byte cells and sixteen byte registers.  An instruction word is
sixteen bits wide, and so are the index register and the program counter; both may hold
numbers past the end of the memory, which is a ring:

* `Nonzero` — the sizes of rings, which have at least one place.
* `Address.wrap` — every number names the cell it is congruent to modulo 4096.
* `wordOfBytes` — a word is two bytes, the high one first.
-/

/-- A number that is not zero.  The zero is spelled out, so that the class is the same
one whatever else is known about zeros. -/
abbrev Nonzero (n : Nat) : Prop := @NeZero Nat Zero.ofOfNat0 n

/-- There is a register, and there is a key. -/
instance nonzero_sixteen : Nonzero 16 := ⟨by decide⟩

/-- There is a memory cell. -/
instance nonzero_memory : Nonzero 4096 := ⟨by decide⟩

/-- A cell of the memory. -/
abbrev Address := Fin 4096

/-- One of the registers `V0` to `VF`. -/
abbrev Register := Fin 16

/-- One of the keys `0` to `F`. -/
abbrev Key := Fin 16

/-- The register that receives carries, borrows, shifted-out bits and collisions. -/
abbrev Register.flag : Register := 15

/-- The cell that a number names: the memory repeats after its last cell. -/
def Address.wrap (n : Nat) : Address := Fin.ofNat 4096 n

@[simp] theorem Address.val_wrap (n : Nat) : (Address.wrap n).val = n % 4096 := rfl

/-- A cell number as a word. -/
def Address.toWord (a : Address) : UInt16 := UInt16.ofNat a.val

@[simp] theorem Address.toNat_toWord (a : Address) : a.toWord.toNat = a.val := by
  have : a.val < 4096 := a.isLt
  simp only [Address.toWord, UInt16.toNat_ofNat']
  omega

/-- The word made of a high and a low byte. -/
def wordOfBytes (high low : UInt8) : UInt16 := UInt16.ofNat (high.toNat * 256 + low.toNat)

theorem toNat_wordOfBytes (high low : UInt8) :
    (wordOfBytes high low).toNat = high.toNat * 256 + low.toNat := by
  have := high.toNat_lt
  have := low.toNat_lt
  simp only [wordOfBytes, UInt16.toNat_ofNat']
  omega

/-- The high and the low byte of a word, as they lie in memory. -/
def bytesOfWord (w : UInt16) : List UInt8 :=
  [UInt8.ofNat (w.toNat / 256), UInt8.ofNat w.toNat]

/-- The address `count` bytes after `start`, as the program counter holds it. -/
def addressAfter (start : UInt16) (count : Nat) : UInt16 :=
  (Address.wrap (start.toNat + count)).toWord

@[simp] theorem toNat_addressAfter (start : UInt16) (count : Nat) :
    (addressAfter start count).toNat = (start.toNat + count) % 4096 := by
  simp [addressAfter]

end Chip8
