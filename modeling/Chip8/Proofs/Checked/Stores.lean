import Chip8.Machine.Activity
import Chip8.Machine.Bank
import Chip8.Machine.CallStack
import Chip8.Machine.Display

namespace Chip8

/-!
# Stores accessed by number

Memory, registers, keys, stack slots and pixels are numbered stores.  Here each of them is
accessed by a plain number, and an access with a number that the store does not have fails.
Where the number is in range the access is the one that the machine makes.

* `Bank.read?`, `Bank.write?`, `Keypad.isDown?`, `Keypad.set?`, `Display.flip?`,
  `CallStack.push?`, `CallStack.pop?` — one access.
* `Bank.readEach?_eq`, `Bank.writeEach?_eq` — accesses to numbers that run round the ring
  succeed, and amount to `Bank.readFrom` and `Bank.writeFrom`.
* `cellNumber`, `pixelNumber` — the numbers that an address and a pair of coordinates are
  masked to.
-/

/-! ### Banks -/

namespace Bank

variable {n : Nat}

/-- The byte in the cell with a number, if there is such a cell. -/
def read? (b : Bank n) (number : Nat) : Option UInt8 := b.cells[number]?

/-- The bank with another byte in the cell with a number, if there is such a cell. -/
def write? (b : Bank n) (number : Nat) (value : UInt8) : Option (Bank n) :=
  if h : number < n then some (b.write ⟨number, h⟩ value) else none

/-- The bytes in the cells with some numbers, if there are such cells. -/
def readEach? (b : Bank n) (numbers : List Nat) : Option (List UInt8) :=
  numbers.mapM b.read?

/-- The bank after some writes, if there are cells for all of them. -/
def writeEach? (b : Bank n) : List (Nat × UInt8) → Option (Bank n)
  | [] => some b
  | (number, value) :: rest => do
    let after ← b.write? number value
    after.writeEach? rest

@[simp] theorem read?_val (b : Bank n) (i : Fin n) : b.read? i.val = some (b.read i) := by
  simp [read?, read]

@[simp] theorem write?_val (b : Bank n) (i : Fin n) (value : UInt8) :
    b.write? i.val value = some (b.write i value) := by
  simp [write?]

variable [Nonzero n]

/-- Cells whose numbers run round the ring are there, and hold what a run of reads gives. -/
theorem readEach?_eq (b : Bank n) (start count : Nat) (number : Nat → Nat)
    (round : ∀ k < count, number k = (start + k) % n) :
    b.readEach? ((List.range count).map number) = some (b.readFrom start count) := by
  have cells : (List.range count).map number =
      (List.range count).map fun k => (Fin.ofNat n (start + k)).val := by
    refine List.map_congr_left fun k mem => ?_
    rw [round k (List.mem_range.mp mem)]
    rfl
  have each : b.read? ∘ (fun k => (Fin.ofNat n (start + k)).val) =
      fun k => pure (b.read (Fin.ofNat n (start + k))) := by
    funext k
    exact b.read?_val _
  rw [readEach?, cells, List.mapM_map, each, List.mapM_pure]
  rfl

/-- Writes to cells whose numbers run round the ring find their cells, and amount to a run
of writes. -/
theorem writeEach?_eq (b : Bank n) (start : Nat) (values : List UInt8) (number : Nat → Nat)
    (round : ∀ k < values.length, number k = (start + k) % n) :
    b.writeEach? (values.zipIdx.map fun (value, k) => (number k, value)) =
      some (b.writeFrom start values) := by
  induction values generalizing b start number with
  | nil => rfl
  | cons value rest ih =>
    have first : number 0 = (Fin.ofNat n start).val := round 0 (by simp)
    have onward : ∀ k < rest.length, number (k + 1) = (start + 1 + k) % n := by
      intro k h
      rw [round (k + 1) (by simpa using h), Nat.add_right_comm, Nat.add_assoc]
    -- the rest is written one cell further on, to the bank that the first write leaves
    have tail := ih (b.write (Fin.ofNat n start) value) (start + 1) (fun k => number (k + 1))
      onward
    rw [List.zipIdx_cons, List.zipIdx_succ, List.map_cons, List.map_map, writeEach?]
    simp only [first, write?_val, Option.bind_eq_bind, Option.bind_some]
    exact tail

end Bank

/-- The number of the cell that an address is masked to. -/
def cellNumber (place : UInt16) : Nat := (place &&& 0x0FFF).toNat

theorem cellNumber_eq (place : UInt16) : cellNumber place = place.toNat % 4096 := by
  have mask := Nat.and_two_pow_sub_one_eq_mod place.toNat 12
  simpa [cellNumber] using mask

/-- The mask brings every place after an address back into the ring, also one past the last
word. -/
theorem cellNumber_add (start : UInt16) (k : Nat) :
    cellNumber (start + UInt16.ofNat k) = (start.toNat + k) % 4096 := by
  rw [cellNumber_eq, UInt16.toNat_add, UInt16.toNat_ofNat']
  omega

/-! ### Keys -/

namespace Keypad

/-- Whether the key with a number is down, if there is such a key. -/
def isDown? (k : Keypad) (number : Nat) : Option Bool := k.keys[number]?

/-- The keypad with the key with a number pressed or released, if there is such a key. -/
def set? (k : Keypad) (number : Nat) (down : Bool) : Option Keypad :=
  if h : number < 16 then some ⟨k.keys.set number down⟩ else none

@[simp] theorem isDown?_val (k : Keypad) (key : Key) :
    k.isDown? key.val = some (k.isDown key) := by
  simp [isDown?, isDown]

theorem set?_of_lt (k : Keypad) {number : Nat} (h : number < 16) (down : Bool) :
    k.set? number down = some (k.set number down) := by
  simp only [set?, set, h, dif_pos]

end Keypad

/-! ### Pixels -/

/-- The number of the pixel that a column and a row are wrapped to. -/
def pixelNumber (x y : Nat) : Nat := y % 32 * 64 + x % 64

theorem pixelNumber_eq (x y : Nat) : pixelNumber x y = (Display.pixel x y).val := by
  rw [pixelNumber, Display.val_pixel]
  omega

namespace Display

/-- The display with the pixel with a number inverted, and whether it was lit, if there is
such a pixel. -/
def flip? (d : Display) (number : Nat) : Option (Display × Bool) :=
  if h : number < 2048 then
    some (⟨d.pixels.set number (!d.pixels[number])⟩, d.pixels[number])
  else none

/-- Cover one more pixel with the sprite. -/
def Drawing.cover? (g : Drawing) (x y : Nat) : Option Drawing := do
  let (display, met) ← g.display.flip? (pixelNumber x y)
  some { display := display, collided := g.collided || met }

/-- Draw a sprite with its top left corner at a column and a row. -/
def draw? (d : Display) (x y : Nat) (rows : List UInt8) : Option Drawing :=
  (coveredPixels rows).foldlM (fun g (column, row) => g.cover? (x + column) (y + row)) ⟨d, false⟩

theorem flip?_pixel (d : Display) (x y : Int) :
    d.flip? (pixel x y).val = some (d.invert x y, d.lit x y) := by
  have h := (pixel x y).isLt
  simp only [flip?, h, dif_pos]
  rfl

theorem Drawing.cover?_eq (g : Drawing) (x y : Nat) : g.cover? x y = some (g.cover x y) := by
  simp only [cover?, pixelNumber_eq, flip?_pixel]
  rfl

/-- A sprite finds a pixel for every bit, wherever it is drawn. -/
theorem draw?_eq (d : Display) (x y : Nat) (rows : List UInt8) :
    d.draw? x y rows = some (d.draw x y rows) := by
  simp only [draw?, Drawing.cover?_eq]
  exact List.foldlM_pure

end Display

/-! ### The call stack -/

namespace CallStack

/-- The stack with an address in the slot after the taken ones, if there is such a slot. -/
def push? (s : CallStack) (address : UInt16) : Option CallStack := do
  let _ ← s.slots[s.depth]?
  some (s.push address)

/-- The address in the slot taken last and the stack without it, if there is such a slot.
The depth is a byte, and on an empty stack its predecessor is no slot. -/
def pop? (s : CallStack) : Option (UInt16 × CallStack) := do
  let top ← s.slots[(UInt8.ofNat s.depth - 1).toNat]?
  some (top, s.pop)

theorem push?_of_lt {s : CallStack} (h : s.depth < 16) (address : UInt16) :
    s.push? address = some (s.push address) := by
  simp [push?, h]

theorem pop?_of_pos {s : CallStack} (h : 0 < s.depth) : s.pop? = some (s.top, s.pop) := by
  have bound := s.depth_le
  -- the depth fits into a byte and is not zero, so nothing wraps
  have number : (UInt8.ofNat s.depth - 1).toNat = s.depth - 1 := by
    rw [UInt8.toNat_sub_of_le]
    · simp
      omega
    · rw [UInt8.le_iff_toNat_le]
      simp
      omega
  have last : s.depth - 1 < 16 := by omega
  simp [pop?, top, number, last]

end CallStack

end Chip8
