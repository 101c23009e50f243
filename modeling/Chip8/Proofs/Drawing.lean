import Chip8.Proofs.Decoding
import Chip8.Proofs.Dispatch
import Mathlib.Data.List.Nodup

namespace Chip8

/-!
# Drawing is exclusive or under a mask

A sprite is laid over the display like a mask: the pixels that it covers are inverted, and the
others stay as they are.  The display is a torus, so a sprite that reaches over an edge comes in at
the opposite one; still, it is too small to meet itself, and so it covers no pixel twice.

* `Display.Covers` — which pixels a sprite covers, by the bits of its bytes.
* `Display.isLit_foldl_coverPixel`, `Display.collided_foldl_coverPixel` — pixels that are inverted
  one after another: what is shown in the end, and whether one was lit.
* `Display.lit_draw`, `Display.collided_draw` — the same of a sprite and the pixels it covers;
  `Display.display_draw_draw` — a sprite that is drawn twice is gone again.
* `Machine.frame_step_of_draw`, `Machine.lit_step_of_draw`, `Machine.flag_step_of_draw` — a step
  that draws: what it leaves alone, what is shown after it, and its flag.
* `draw_is_masked_xor` — the instruction that draws a sprite, as a whole.
-/

namespace Display

/-! ### Which pixels a sprite covers -/

/-- Whether a sprite that is drawn from a column and a row on covers a pixel.  The highest bit of a
byte is the leftmost one, and what reaches over an edge comes in again at the opposite one. -/
def Covers (left top : Nat) (sprite : List UInt8) (x y : Nat) : Prop :=
  ∃ row < sprite.length, ∃ column < 8,
    x = (left + column) % 64 ∧ y = (top + row) % 32 ∧
      (sprite.getD row 0).toNat.testBit (7 - column) = true

instance (left top : Nat) (sprite : List UInt8) (x y : Nat) :
    Decidable (Covers left top sprite x y) :=
  inferInstanceAs (Decidable (∃ row < sprite.length, ∃ column < 8, _))

/-- The pixels that a sprite covers, one for each bit that is set. -/
def covered (left top : Nat) (sprite : List UInt8) : List Pixel :=
  (coveredPixels sprite).map fun (column, row) => pixel (left + column : Nat) (top + row : Nat)

/-- Coordinates name the same pixel just if they are the same up to the size of the display. -/
theorem pixel_eq_iff (x y x' y' : Int) :
    pixel x y = pixel x' y' ↔ x % 64 = x' % 64 ∧ y % 32 = y' % 32 := by
  rw [Fin.ext_iff, val_pixel, val_pixel]
  omega

/-- The column and the row of a pixel name it. -/
theorem pixel_val (p : Pixel) : pixel (p.val % 64 : Nat) (p.val / 64 : Nat) = p := by
  have bound := p.isLt
  apply Fin.ext
  rw [val_pixel]
  omega

/-- Every pixel has a column and a row. -/
theorem exists_pixel (p : Pixel) : ∃ x y : Nat, x < 64 ∧ y < 32 ∧ pixel x y = p := by
  have bound := p.isLt
  exact ⟨p.val % 64, p.val / 64, by omega, by omega, pixel_val p⟩

/-- Displays that show the same at all columns and rows are equal. -/
theorem ext_lit {a b : Display}
    (h : ∀ x y : Nat, x < 64 → y < 32 → a.lit x y = b.lit x y) : a = b := by
  apply ext_isLit
  intro p
  obtain ⟨x, y, hx, hy, rfl⟩ := exists_pixel p
  exact h x y hx hy

theorem mem_coveredPixels (sprite : List UInt8) (column row : Nat) :
    (column, row) ∈ coveredPixels sprite ↔
      row < sprite.length ∧ column < 8 ∧
        (sprite.getD row 0).toNat.testBit (7 - column) = true := by
  simp only [coveredPixels, coveredColumns, List.mem_flatMap, List.mem_map, List.mem_filter,
    List.mem_range, Prod.exists, List.mem_zipIdx_iff_getElem?, Prod.mk.injEq]
  constructor
  · rintro ⟨bits, row', here, column', ⟨inside, set⟩, rfl, rfl⟩
    obtain ⟨bound, rfl⟩ := List.getElem?_eq_some_iff.mp here
    refine ⟨bound, inside, ?_⟩
    rw [List.getD_eq_getElem?_getD, here]
    exact set
  · rintro ⟨bound, inside, set⟩
    rw [List.getD_eq_getElem?_getD, List.getElem?_eq_getElem bound] at set
    exact ⟨sprite[row], row, List.getElem?_eq_getElem bound, column, ⟨inside, set⟩, rfl, rfl⟩

/-- The list has the pixels in it that the sprite covers. -/
theorem mem_covered (left top : Nat) (sprite : List UInt8) {x y : Nat} (hx : x < 64)
    (hy : y < 32) : pixel x y ∈ covered left top sprite ↔ Covers left top sprite x y := by
  simp only [covered, List.mem_map, Prod.exists, mem_coveredPixels, Covers, pixel_eq_iff]
  constructor
  · rintro ⟨column, row, ⟨bound, inside, set⟩, across, down⟩
    exact ⟨row, bound, column, inside, by omega, by omega, set⟩
  · rintro ⟨row, bound, column, inside, across, down, set⟩
    exact ⟨column, row, ⟨bound, inside, set⟩, by omega, by omega⟩

theorem nodup_coveredPixels (sprite : List UInt8) : (coveredPixels sprite).Nodup := by
  rw [coveredPixels, List.nodup_flatMap]
  refine ⟨?_, ?_⟩
  · rintro ⟨bits, row⟩ -
    have columns : (coveredColumns bits).Nodup := List.nodup_range.filter _
    exact columns.map fun a b same => congrArg Prod.fst same
  · -- different bytes lie in different rows
    have rows : (sprite.zipIdx.map Prod.snd).Nodup := by
      rw [List.zipIdx_map_snd]
      exact List.nodup_range'
    refine (List.pairwise_map.mp rows).imp ?_
    intro a b apart place inA inB
    obtain ⟨_, _, rfl⟩ := List.mem_map.mp inA
    obtain ⟨_, _, same⟩ := List.mem_map.mp inB
    exact apart (congrArg Prod.snd same).symm

/-- A sprite that is no higher than the display covers no pixel twice. -/
theorem nodup_covered (left top : Nat) {sprite : List UInt8} (fits : sprite.length ≤ 32) :
    (covered left top sprite).Nodup := by
  refine (nodup_coveredPixels sprite).map_on ?_
  rintro ⟨column, row⟩ here ⟨column', row'⟩ there same
  obtain ⟨bound, inside, -⟩ := (mem_coveredPixels ..).mp here
  obtain ⟨bound', inside', -⟩ := (mem_coveredPixels ..).mp there
  obtain ⟨across, down⟩ := (pixel_eq_iff ..).mp same
  ext <;> simp only <;> omega

/-! ### Pixels inverted one after another -/

/-- Cover one more pixel with a sprite. -/
def Drawing.coverPixel (g : Drawing) (p : Pixel) : Drawing :=
  g.cover (p.val % 64 : Nat) (p.val / 64 : Nat)

/-- It does not matter by which coordinates a pixel is named. -/
theorem coverPixel_pixel (g : Drawing) (x y : Int) : g.coverPixel (pixel x y) = g.cover x y := by
  simp only [Drawing.coverPixel, Drawing.cover, flip, lit, invert, pixel_val]

/-- A drawing covers the pixels of the sprite one after another. -/
theorem draw_eq_foldl (d : Display) (left top : Nat) (sprite : List UInt8) :
    d.draw left top sprite = (covered left top sprite).foldl Drawing.coverPixel ⟨d, false⟩ := by
  rw [covered, List.foldl_map]
  simp only [coverPixel_pixel]
  rfl

/-- Covering a pixel inverts it and no other. -/
theorem isLit_coverPixel (g : Drawing) (q p : Pixel) :
    (g.coverPixel q).display.isLit p = (g.display.isLit p ^^ decide (q = p)) := by
  show (g.display.invert _ _).isLit p = _
  rw [isLit_invert, pixel_val]
  by_cases same : q = p <;> simp [same]

/-- In the end a pixel is inverted if it has been covered an odd number of times. -/
theorem isLit_foldl_coverPixel (pixels : List Pixel) (g : Drawing) (p : Pixel) :
    (pixels.foldl Drawing.coverPixel g).display.isLit p =
      (g.display.isLit p ^^ decide (pixels.count p % 2 = 1)) := by
  induction pixels generalizing g with
  | nil => simp
  | cons q rest ih =>
    rw [List.foldl_cons, ih, isLit_coverPixel, List.count_cons]
    by_cases same : q = p
    · simp only [same, decide_true, beq_self_eq_true, if_true]
      rcases Nat.mod_two_eq_zero_or_one (rest.count p) with even | odd
      · have odd : (rest.count p + 1) % 2 = 1 := by omega
        simp [even, odd]
      · have even : (rest.count p + 1) % 2 = 0 := by omega
        simp [even, odd]
    · simp [same]

/-- Where no pixel is covered twice, what was lit at the beginning counts for a collision. -/
theorem collided_foldl_coverPixel {pixels : List Pixel} (nodup : pixels.Nodup) (g : Drawing) :
    (pixels.foldl Drawing.coverPixel g).collided = true ↔
      g.collided = true ∨ ∃ p ∈ pixels, g.display.isLit p = true := by
  induction pixels generalizing g with
  | nil => simp
  | cons q rest ih =>
    obtain ⟨fresh, nodup⟩ := List.nodup_cons.mp nodup
    -- the pixels that follow are other ones, so the first one makes no difference to them
    have untouched : ∀ p ∈ rest, (g.coverPixel q).display.isLit p = g.display.isLit p := by
      intro p later
      have apart : q ≠ p := fun same => fresh (same ▸ later)
      rw [isLit_coverPixel, decide_eq_false apart, Bool.xor_false]
    have onward : (∃ p ∈ rest, (g.coverPixel q).display.isLit p = true) ↔
        ∃ p ∈ rest, g.display.isLit p = true := by
      refine exists_congr fun p => and_congr_right fun later => ?_
      rw [untouched p later]
    have here : (g.coverPixel q).collided = true ↔
        g.collided = true ∨ g.display.isLit q = true := by
      show (g.collided || g.display.isLit (pixel _ _)) = true ↔ _
      rw [pixel_val, Bool.or_eq_true]
    rw [List.foldl_cons, ih nodup, onward, here, List.exists_mem_cons_iff, or_assoc]

/-! ### The sprite as a mask -/

/-- Drawing a sprite is exclusive or with the pixels that it covers. -/
theorem lit_draw (d : Display) (left top : Nat) {sprite : List UInt8} (fits : sprite.length ≤ 32)
    {x y : Nat} (hx : x < 64) (hy : y < 32) :
    (d.draw left top sprite).display.lit x y =
      (d.lit x y ^^ decide (Covers left top sprite x y)) := by
  have nodup := nodup_covered left top fits
  have odd : (covered left top sprite).count (pixel x y) % 2 = 1 ↔
      Covers left top sprite x y := by
    rw [← mem_covered left top sprite hx hy, nodup.count]
    split <;> simp [*]
  rw [draw_eq_foldl]
  show ((covered left top sprite).foldl Drawing.coverPixel ⟨d, false⟩).display.isLit (pixel x y) = _
  rw [isLit_foldl_coverPixel, decide_eq_decide.mpr odd]
  rfl

/-- Drawing a sprite meets a lit pixel just if it covers one that was lit before. -/
theorem collided_draw (d : Display) (left top : Nat) {sprite : List UInt8}
    (fits : sprite.length ≤ 32) :
    (d.draw left top sprite).collided = true ↔
      ∃ x y : Nat, x < 64 ∧ y < 32 ∧ d.lit x y = true ∧ Covers left top sprite x y := by
  rw [draw_eq_foldl, collided_foldl_coverPixel (nodup_covered left top fits)]
  constructor
  · rintro (impossible | ⟨p, inside, lit⟩)
    · cases impossible
    · obtain ⟨x, y, hx, hy, rfl⟩ := exists_pixel p
      exact ⟨x, y, hx, hy, lit, (mem_covered left top sprite hx hy).mp inside⟩
  · rintro ⟨x, y, hx, hy, lit, covers⟩
    exact .inr ⟨pixel x y, (mem_covered left top sprite hx hy).mpr covers, lit⟩

/-- Drawing the same sprite at the same place once more takes it off the display. -/
theorem display_draw_draw (d : Display) (left top : Nat) {sprite : List UInt8}
    (fits : sprite.length ≤ 32) :
    ((d.draw left top sprite).display.draw left top sprite).display = d := by
  apply ext_lit
  intro x y hx hy
  rw [lit_draw _ _ _ fits hx hy, lit_draw _ _ _ fits hx hy, Bool.xor_assoc, Bool.xor_self,
    Bool.xor_false]

end Display

/-! ### The instruction -/

namespace Machine

/-- Whether the sprite that the index register points at covers a pixel when it is drawn from the
place on that two registers give. -/
def SpriteCovers (m : Machine) (x y : Register) (rows : Fin 16) (px py : Nat) : Prop :=
  ∃ row < rows.val, ∃ bit < 8,
    px = ((m.reg x).toNat % 64 + bit) % 64 ∧ py = ((m.reg y).toNat % 32 + row) % 32 ∧
      (m.memory.read (Address.wrap (m.index.toNat + row))).toNat.testBit (7 - bit) = true

instance (m : Machine) (x y : Register) (rows : Fin 16) (px py : Nat) :
    Decidable (m.SpriteCovers x y rows px py) :=
  inferInstanceAs (Decidable (∃ row < rows.val, ∃ bit < 8, _))

/-- These are the pixels that the sprite covers which the instruction draws. -/
theorem covers_spriteRows_iff (m : Machine) (x y : Register) (rows : Fin 16) (px py : Nat) :
    Display.Covers ((m.reg x).toNat % Display.width) ((m.reg y).toNat % Display.height)
      (m.spriteRows rows) px py ↔ m.SpriteCovers x y rows px py := by
  unfold Display.Covers SpriteCovers spriteRows
  rw [Bank.length_readFrom]
  refine exists_congr fun row => and_congr_right fun bound => ?_
  have byte : (m.memory.readFrom m.index.toNat rows.val).getD row 0 =
      m.memory.read (Address.wrap (m.index.toNat + row)) := by
    rw [List.getD_eq_getElem?_getD, Bank.getElem?_readFrom _ _ bound]
    rfl
  rw [byte]
  rfl

/-- What drawing makes of the display and of the flag, and what it leaves alone. -/
theorem execute_draw (m : Machine) (x y : Register) (rows : Fin 16) :
    let drawing := m.display.draw ((m.reg x).toNat % Display.width)
      ((m.reg y).toNat % Display.height) (m.spriteRows rows)
    m.execute (.draw x y rows) =
      { m with
        pc := addressAfter m.pc 2
        registers := m.registers.write Register.flag (flagByte drawing.collided)
        display := drawing.display } := rfl

/-- A sprite has fewer rows than the display. -/
theorem length_spriteRows_le (m : Machine) (rows : Fin 16) : (m.spriteRows rows).length ≤ 32 := by
  rw [spriteRows, Bank.length_readFrom]
  omega

/-- The sprite that the instruction draws meets a lit pixel just if it covers one. -/
theorem collided_spriteRows_iff (m : Machine) (x y : Register) (rows : Fin 16) :
    (m.display.draw ((m.reg x).toNat % Display.width) ((m.reg y).toNat % Display.height)
      (m.spriteRows rows)).collided = true ↔
      ∃ px py : Nat, px < 64 ∧ py < 32 ∧ m.display.lit px py = true ∧
        m.SpriteCovers x y rows px py := by
  refine (Display.collided_draw _ _ _ (m.length_spriteRows_le rows)).trans ?_
  simp only [m.covers_spriteRows_iff]

section Step

variable {m : Machine} {x y : Register} {rows : Fin 16} (running : m.activity = .running)
  (word : decode (m.fetch m.pc) = .draw x y rows)

include running word

/-- The step of an instruction that draws reports no fault and changes nothing but the display, the
flag and what every step changes. -/
theorem frame_step_of_draw :
    m.step.fault? = none ∧ m.step.machine.activity = .running ∧
      (∀ r : Register, r ≠ Register.flag → m.step.machine.reg r = m.reg r) ∧
      m.step.machine.index = m.index ∧ m.step.machine.memory = m.memory ∧
      m.step.machine.calls = m.calls ∧ m.step.machine.pc = m.next.pc := by
  obtain ⟨timeline, step⟩ := exists_timeline_step running word rfl
  rw [step, m.execute_draw x y rows]
  refine ⟨rfl, running, ?_, rfl, rfl, rfl, rfl⟩
  intro r other
  exact Bank.read_write_of_ne _ other.symm _

/-- It inverts the pixels that the sprite covers. -/
theorem lit_step_of_draw {px py : Nat} (hx : px < 64) (hy : py < 32) :
    m.step.machine.display.lit px py =
      (m.display.lit px py ^^ decide (m.SpriteCovers x y rows px py)) := by
  obtain ⟨timeline, step⟩ := exists_timeline_step running word rfl
  have covers := m.covers_spriteRows_iff x y rows px py
  rw [step, m.execute_draw x y rows, ← decide_eq_decide.mpr covers]
  exact Display.lit_draw _ _ _ (m.length_spriteRows_le rows) hx hy

/-- It leaves the flag at whether the sprite has met a lit pixel. -/
theorem flag_step_of_draw :
    m.step.machine.reg Register.flag =
      flagByte (m.display.draw ((m.reg x).toNat % Display.width)
        ((m.reg y).toNat % Display.height) (m.spriteRows rows)).collided := by
  obtain ⟨timeline, step⟩ := exists_timeline_step running word rfl
  rw [step, m.execute_draw x y rows]
  exact Bank.read_write_self ..

end Step

end Machine

/-- Drawing is exclusive or under a mask.  Let a machine run and come to a word that draws a sprite.
The sprite has a row for each of some bytes of memory from the index register on, round the end of
memory, and covers a pixel for each bit that is set, round the edges of the display, from the place
on that the two registers give before the step.  The step reports no fault.  It inverts the pixels
that the sprite covers and no others; the flag is one if one of these pixels was lit and zero
otherwise, whatever registers the word names; and the other registers, the index register, memory
and the call stack stay as they are, while the machine goes on to the next instruction. -/
theorem draw_is_masked_xor {m : Machine} {x y : Register} {rows : Fin 16}
    (running : m.activity = .running)
    (word : (m.fetch m.pc).toNat = 0xD000 + x.val * 0x100 + y.val * 0x10 + rows.val) :
    let after := m.step.machine
    let met := ∃ px py : Nat, px < 64 ∧ py < 32 ∧ m.display.lit px py = true ∧
      m.SpriteCovers x y rows px py
    m.step.fault? = none ∧
    (∀ px py : Nat, px < 64 → py < 32 →
      after.display.lit px py = (m.display.lit px py ^^ decide (m.SpriteCovers x y rows px py))) ∧
    ((met → after.reg Register.flag = 1) ∧ (¬ met → after.reg Register.flag = 0) ∧
      (rows = 0 → after.display = m.display ∧ after.reg Register.flag = 0)) ∧
    (∀ r : Register, r ≠ Register.flag → after.reg r = m.reg r) ∧
    after.index = m.index ∧ after.memory = m.memory ∧ after.calls = m.calls ∧
    after.pc.toNat = (m.pc.toNat + 2) % 4096 := by
  intro after met
  have word := decode_of_toNat_eq_draw word
  obtain ⟨calm, -, others, index, memory, calls, pc⟩ := Machine.frame_step_of_draw running word
  have flag := Machine.flag_step_of_draw running word
  have collided := m.collided_spriteRows_iff x y rows
  refine ⟨calm, fun px py => Machine.lit_step_of_draw running word, ⟨?_, ?_, ?_⟩, others, index,
    memory, calls, ?_⟩
  · intro some
    rw [flag, collided.mpr some]
    rfl
  · intro none
    rw [flag, Bool.eq_false_iff.mpr (mt collided.mp none)]
    rfl
  · -- without rows there is nothing to draw
    rintro rfl
    refine ⟨?_, flag⟩
    obtain ⟨timeline, step⟩ := Machine.exists_timeline_step running word rfl
    exact congrArg (fun o : Outcome => o.machine.display) step
  · rw [pc]
    exact toNat_addressAfter m.pc 2

/-- A sprite of two rows lies in the last cell of memory and in the first.  Its second row has been
drawn from the bottom right corner of the display on and came in again at the top, with a pixel at
the right and one at the left.  One of its bits is then taken away, and it is drawn once more: a
pixel goes out, the other one stays. -/
theorem draw_is_masked_xor_corners :
    let m := (Machine.powerOn {} 0 default).after
      [.load [0x6F, 0x3F, 0xAF, 0xFF, 0xDF, 0xF2, 0x6F, 0x3F, 0xDF, 0xF2], .poke 0 0xC0,
        .step, .step, .step, .step, .poke 0 0x80]
    (m.activity = .running ∧ (m.fetch m.pc).toNat = 0xDFF2 ∧ m.display.lit (63 : Nat) (0 : Nat) ∧
      m.display.lit (0 : Nat) (0 : Nat)) ∧
    m.step.machine.display.lit (63 : Nat) (0 : Nat) = false ∧
    m.step.machine.display.lit (0 : Nat) (0 : Nat) = true ∧
    m.step.machine.reg Register.flag = 1 ∧ m.step.machine.pc.toNat = 0x20A := by
  intro m
  have facts : (m.activity = .running ∧ (m.fetch m.pc).toNat = 0xDFF2 ∧
      m.display.lit (63 : Nat) (0 : Nat) ∧ m.display.lit (0 : Nat) (0 : Nat)) ∧
      (m.SpriteCovers 15 15 2 63 0 ∧ ¬ m.SpriteCovers 15 15 2 0 0) ∧ m.pc.toNat = 0x208 := by
    decide +kernel
  obtain ⟨⟨running, word, right, left⟩, ⟨covered, spared⟩, pc⟩ := facts
  obtain ⟨-, masked, ⟨met, -, -⟩, -, -, -, -, next⟩ :=
    @draw_is_masked_xor m 15 15 2 running word
  refine ⟨⟨running, word, right, left⟩, ?_, ?_, ?_, ?_⟩
  · rw [masked 63 0 (by decide) (by decide), right, decide_eq_true covered]
    rfl
  · rw [masked 0 0 (by decide) (by decide), left, decide_eq_false spared]
    rfl
  · exact met ⟨63, 0, by decide, by decide, right, covered⟩
  · rw [next, pc]

end Chip8
