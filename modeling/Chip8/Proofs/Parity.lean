import Chip8.Proofs.Drawing
import Mathlib.Algebra.Ring.Parity
import Mathlib.Data.Fintype.Fin
import Mathlib.Data.List.DropRight

namespace Chip8

/-!
# The display counts flips modulo two

A display that is flipped at some coordinates and cleared now and then remembers, of every pixel,
whether it has been flipped an odd number of times since the last clear.  The display is a torus, so
coordinates that are the same modulo its size count for the same pixel.

* `Display.Touch`, `Display.touched` — flips and clears, and what a blank display has become after
  some of them.
* `Display.flips` — how often coordinates have been flipped since the last clear.
* `Display.lit_touched` — what is shown is the parity of the flips.
* `Display.countLit_eq_card`, `Display.countLit_invert` — how many pixels are lit, and what a flip
  changes about it.
* `display_shows_parity_of_flips` — all of it.
-/

namespace Display

/-! ### Flips and clears -/

/-- What is done to a display. -/
inductive Touch where
  /-- The pixel at a column and a row is inverted. -/
  | flip (x y : Int32)
  /-- All pixels go out. -/
  | clear
  deriving DecidableEq, Repr

/-- The display after it has been flipped somewhere or cleared. -/
def touch (d : Display) : Touch → Display
  | .flip x y => (d.flip x.toInt y.toInt).2
  | .clear => blank

/-- What a blank display has become. -/
def touched (touches : List Touch) : Display := touches.foldl touch blank

/-- Whether a flip meets the pixel at a column and a row: the coordinates are the same modulo the
size of the display. -/
def Touch.Meets (x y : Int) : Touch → Prop
  | .flip x' y' => x'.toInt % 64 = x % 64 ∧ y'.toInt % 32 = y % 32
  | .clear => False

instance (x y : Int) : DecidablePred (Touch.Meets x y)
  | .flip x' y' => inferInstanceAs (Decidable (x'.toInt % 64 = x % 64 ∧ y'.toInt % 32 = y % 32))
  | .clear => inferInstanceAs (Decidable False)

/-- How many flips since the last clear have met the pixel at a column and a row. -/
def flips (touches : List Touch) (x y : Int) : Nat :=
  (touches.rtakeWhile (· ≠ .clear)).countP (Touch.Meets x y ·)

section Touches

variable (touches : List Touch) (x y : Int) (x' y' : Int32)

theorem touched_concat (t : Touch) : touched (touches ++ [t]) = (touched touches).touch t := by
  rw [touched, List.foldl_concat]
  rfl

theorem flips_concat_flip :
    flips (touches ++ [.flip x' y']) x y =
      flips touches x y + if x'.toInt % 64 = x % 64 ∧ y'.toInt % 32 = y % 32 then 1 else 0 := by
  rw [flips, List.rtakeWhile_concat_pos _ _ _ (by simp), List.countP_append,
    List.countP_singleton]
  simp only [decide_eq_true_eq]
  rfl

theorem flips_concat_clear : flips (touches ++ [.clear]) x y = 0 := by
  rw [flips, List.rtakeWhile_concat_neg _ _ _ (by simp)]
  rfl

/-- A pixel is lit just if it has been flipped an odd number of times since the last clear. -/
theorem lit_touched : (touched touches).lit x y = true ↔ Odd (flips touches x y) := by
  induction touches using List.reverseRecOn with
  | nil => simp [touched, lit, flips]
  | append_singleton touches t ih =>
    rw [touched_concat]
    cases t with
    | flip x' y' =>
      show ((touched touches).invert x'.toInt y'.toInt).isLit (pixel x y) = true ↔ _
      rw [isLit_invert, flips_concat_flip]
      simp only [pixel_eq_iff]
      split
      · -- the flip turns both what is shown and the parity
        rw [Bool.not_eq_true', ← Bool.not_eq_true, Nat.odd_add_one, ← ih]
        rfl
      · exact ih
    | clear =>
      rw [flips_concat_clear]
      simp [touch, lit]

end Touches

/-! ### Lit pixels -/

/-- The pixels that are lit. -/
def litPixels (d : Display) : Finset Pixel := Finset.univ.filter fun p => d.isLit p = true

@[simp] theorem mem_litPixels {d : Display} {p : Pixel} : p ∈ d.litPixels ↔ d.isLit p = true := by
  simp [litPixels]

theorem countLit_eq_card (d : Display) : d.countLit = d.litPixels.card := by
  -- the library counts by places in lists of a known length
  let pixels : List.Vector Bool 2048 := ⟨d.pixels.toList, d.pixels.length_toList⟩
  have counted := Fin.card_filter_univ_eq_vector_get_eq_count true pixels
  rw [countLit]
  refine counted.symm.trans ?_
  congr 1

/-- A flip takes its pixel out of the lit ones, or adds it to them. -/
theorem litPixels_invert (d : Display) (x y : Int) :
    (d.invert x y).litPixels =
      if d.lit x y then d.litPixels.erase (pixel x y) else insert (pixel x y) d.litPixels := by
  ext p
  rw [mem_litPixels, isLit_invert]
  by_cases here : pixel x y = p
  · subst here
    cases was : d.isLit (pixel x y) <;> simp [lit, was]
  · cases was : d.isLit (pixel x y) <;> simp [lit, was, here, Ne.symm here]

/-- So it changes their number by one. -/
theorem countLit_invert (d : Display) (x y : Int) :
    if d.lit x y then (d.invert x y).countLit + 1 = d.countLit
    else (d.invert x y).countLit = d.countLit + 1 := by
  rw [countLit_eq_card, countLit_eq_card, litPixels_invert]
  split
  · next was => exact Finset.card_erase_add_one (mem_litPixels.mpr was)
  · next was => exact Finset.card_insert_of_notMem (mt mem_litPixels.mp was)

end Display

open Display in
/-- The display is a torus on which flips count modulo two.  Coordinates of 32 bits name the cell
with the number that the remainders of row and column make, so there are 2048 cells, and coordinates
share one just if they are the same modulo its 64 columns and 32 rows.  After any flips and clears of
a blank display, a pixel is lit just if it has been flipped an odd number of times since the last
clear, and as many pixels are lit as there are cells of which this is true.  One more flip tells
whether the pixel has been lit, and changes the number by one: down if so, and up if not. -/
theorem display_shows_parity_of_flips :
    (∀ x y : Int32,
      (pixel x.toInt y.toInt).val = (y.toInt % 32).toNat * 64 + (x.toInt % 64).toNat ∧
        (y.toInt % 32).toNat * 64 + (x.toInt % 64).toNat < 2048) ∧
    (∀ x y x' y' : Int32,
      pixel x.toInt y.toInt = pixel x'.toInt y'.toInt ↔
        x.toInt % 64 = x'.toInt % 64 ∧ y.toInt % 32 = y'.toInt % 32) ∧
    ∀ touches : List Touch,
      let d := touched touches
      (∀ x y : Int32, d.lit x.toInt y.toInt = true ↔ Odd (flips touches x.toInt y.toInt)) ∧
      d.countLit =
        (Finset.univ.filter fun p : Pixel =>
          Odd (flips touches (p.val % 64 : Nat) (p.val / 64 : Nat))).card ∧
      ∀ x y : Int32,
        let (was, d') := d.flip x.toInt y.toInt
        was = d.lit x.toInt y.toInt ∧ d' = touched (touches ++ [.flip x y]) ∧
          (d'.countLit : Int) = d.countLit + if was then -1 else 1 := by
  refine ⟨?_, ?_, ?_⟩
  · intro x y
    have number := val_pixel x.toInt y.toInt
    exact ⟨number, number ▸ (pixel x.toInt y.toInt).isLt⟩
  · intro x y x' y'
    exact pixel_eq_iff ..
  · intro touches d
    refine ⟨fun x y => lit_touched touches x.toInt y.toInt, ?_, ?_⟩
    · have odd : d.litPixels =
          Finset.univ.filter fun p => Odd (flips touches (p.val % 64 : Nat) (p.val / 64 : Nat)) := by
        ext p
        rw [mem_litPixels, Finset.mem_filter_univ, ← lit_touched, lit, pixel_val]
      rw [countLit_eq_card, odd]
    · intro x y
      refine ⟨rfl, (touched_concat touches (.flip x y)).symm, ?_⟩
      have changed := countLit_invert d x.toInt y.toInt
      show ((d.invert x.toInt y.toInt).countLit : Int) = _ + if d.lit x.toInt y.toInt then -1 else 1
      split at changed
      · next was =>
        rw [if_pos was]
        omega
      · next was =>
        rw [if_neg was]
        omega

end Chip8
