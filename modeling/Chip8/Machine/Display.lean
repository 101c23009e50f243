import Chip8.Word

namespace Chip8

/-!
# The display

The display is a torus of 64 by 32 pixels: every pair of coordinates, however large or
negative, names a pixel.  Coordinates have 32 bits.  Sprites are drawn by inverting pixels.

* `Display.wrapped`, `Display.toInt_wrapped` — a coordinate is moved into the display by a division
  that leaves remainders of either sign.
* `Display.pixel`, `Display.val_pixel` — the pixel that coordinates name.
* `Display.invert`, `Display.isLit_invert` — one pixel is inverted and no other; `Display.flip`
  tells as well whether it was lit.
* `Display.draw` — a sprite inverts the pixels it covers and reports whether it met one
  that was lit.
-/

/-- A place on the display, counted row by row from the top left. -/
abbrev Pixel := Fin 2048

/-- Which pixels are lit. -/
@[ext] structure Display where
  /-- The pixels, row by row. -/
  pixels : Vector Bool 2048
  deriving DecidableEq

namespace Display

/-- Pixels in a row. -/
def width : Nat := 64

/-- Rows of pixels. -/
def height : Nat := 32

/-- A coordinate moved into a range of some size.  Division leaves a remainder with the sign of
the coordinate; one below zero is moved up by the size. -/
def wrapped (size coordinate : Int32) : Int32 :=
  let rest := coordinate % size
  if rest < 0 then rest + size else rest

/-- The coordinate that is left is the one modulo the size. -/
theorem toInt_wrapped {size : Int32} (positive : 0 < size.toInt) (coordinate : Int32) :
    (wrapped size coordinate).toInt = coordinate.toInt % size.toInt := by
  have small := size.toInt_lt
  have low : -size.toInt < coordinate.toInt.tmod size.toInt := Int.lt_tmod_of_pos _ positive
  have high : coordinate.toInt.tmod size.toInt < size.toInt := Int.tmod_lt_of_pos _ positive
  have same : coordinate.toInt % size.toInt = coordinate.toInt.tmod size.toInt % size.toInt := by
    rw [← Int.mul_add_emod_self_left size.toInt (coordinate.toInt.tdiv size.toInt)
      (coordinate.toInt.tmod size.toInt), Int.mul_tdiv_add_tmod]
  rw [same, wrapped]
  simp only [Int32.lt_iff_toInt_lt, Int32.toInt_mod, Int32.toInt_zero]
  split
  · -- the sum lies between zero and the size, so it does not leave the 32 bits
    rw [Int32.toInt_add, Int32.toInt_mod, Int.bmod_eq_of_le (by omega) (by omega)]
    rw [← Int.add_emod_right, Int.emod_eq_of_lt (by omega) (by omega)]
  · rw [Int32.toInt_mod, Int.emod_eq_of_lt (by omega) (by omega)]

/-- The number of the pixel at a column and a row. -/
def cell (x y : Int32) : Nat := (wrapped 32 y).toInt.toNat * 64 + (wrapped 64 x).toInt.toNat

theorem cell_eq (x y : Int32) :
    cell x y = (y.toInt % 32).toNat * 64 + (x.toInt % 64).toNat := by
  rw [cell, toInt_wrapped (by decide), toInt_wrapped (by decide)]
  rfl

theorem cell_lt (x y : Int32) : cell x y < 2048 := by
  rw [cell_eq]
  omega

/-- The pixel at a column and a row, of which 32 bits count. -/
def pixel (x y : Int) : Pixel := ⟨cell (.ofInt x) (.ofInt y), cell_lt _ _⟩

/-- Thirty-two bits keep a number up to a multiple of `2 ^ 32`. -/
theorem toInt_ofInt_emod (n : Int) : (Int32.ofInt n).toInt % 0x100000000 = n % 0x100000000 := by
  have kept := Int.bmod_emod (x := n) (m := Int32.size)
  rw [Int32.toInt_ofInt]
  exact kept

/-- The sizes divide `2 ^ 32`, so both coordinates count modulo the size of the display. -/
theorem val_pixel (x y : Int) : (pixel x y).val = (y % 32).toNat * 64 + (x % 64).toNat := by
  have column := toInt_ofInt_emod x
  have row := toInt_ofInt_emod y
  simp only [pixel, cell_eq]
  omega

-- the last column of the last row stands before the first one of the first row
example : (pixel (-1) (-1)).val = 2047 := by decide

/-- The display with all pixels unlit. -/
def blank : Display := ⟨Vector.replicate 2048 false⟩

instance : Inhabited Display := ⟨blank⟩

/-- Whether the pixel at a place is lit. -/
def isLit (d : Display) (p : Pixel) : Bool := d.pixels[p]

/-- Whether the pixel at a column and a row is lit. -/
def lit (d : Display) (x y : Int) : Bool := d.isLit (pixel x y)

/-- The display with the pixel at a column and a row inverted. -/
def invert (d : Display) (x y : Int) : Display :=
  let p := pixel x y
  ⟨d.pixels.set p (!d.pixels[p])⟩

/-- Invert the pixel at a column and a row; whether it was lit before, and the display after. -/
def flip (d : Display) (x y : Int) : Bool × Display := (d.lit x y, d.invert x y)

/-- How many pixels are lit. -/
def countLit (d : Display) : Nat := d.pixels.toList.count true

@[simp] theorem isLit_blank (p : Pixel) : blank.isLit p = false := by
  simp [blank, isLit]

/-- Inverting a pixel inverts that pixel and no other. -/
theorem isLit_invert (d : Display) (x y : Int) (p : Pixel) :
    (d.invert x y).isLit p = if pixel x y = p then !d.isLit p else d.isLit p := by
  by_cases h : pixel x y = p
  · subst h
    simp [invert, isLit]
  · have : (pixel x y).val ≠ p.val := fun e => h (Fin.ext e)
    simp [invert, isLit, h, Vector.getElem_set_ne, this]

/-- Displays with the same lit pixels are equal. -/
theorem ext_isLit {a b : Display} (h : ∀ p, a.isLit p = b.isLit p) : a = b :=
  Display.ext (Vector.ext fun i hi => h ⟨i, hi⟩)

/-! ### Sprites -/

/-- The columns that a row of a sprite covers: the highest bit is the leftmost. -/
def coveredColumns (row : UInt8) : List Nat :=
  (List.range 8).filter fun column => row.toNat.testBit (7 - column)

/-- The pixels that a sprite covers, as columns and rows from its top left corner. -/
def coveredPixels (rows : List UInt8) : List (Nat × Nat) :=
  rows.zipIdx.flatMap fun (bits, row) => (coveredColumns bits).map fun column => (column, row)

/-- A display after drawing, and whether a pixel was lit that has now gone out. -/
structure Drawing where
  /-- What is shown now. -/
  display : Display
  /-- Whether a lit pixel was met. -/
  collided : Bool

/-- Cover one more pixel with the sprite. -/
def Drawing.cover (g : Drawing) (x y : Int) : Drawing :=
  let (met, display) := g.display.flip x y
  { display := display, collided := g.collided || met }

/-- Draw a sprite with its top left corner at a column and a row. -/
def draw (d : Display) (x y : Nat) (rows : List UInt8) : Drawing :=
  (coveredPixels rows).foldl
    (fun g (column, row) => g.cover (x + column : Nat) (y + row : Nat)) ⟨d, false⟩

end Display

end Chip8
