import Chip8.Proofs.Drawing
import Chip8.Proofs.Histories

namespace Chip8

/-!
# Draws commute and cancel

Drawing is exclusive or, so draws act on the display like a group in which every element is its own
inverse: they commute, and the same draw once more takes the first one back.  Where a display is
only drawn on, it can be told from the draws without regard to their order, and draws that come in
pairs leave nothing behind.

* `Draw`, `Display.afterDraws` — a draw as a value, and the display after a list of them.
* `Draw.onto_comm`, `Draw.onto_onto` — two draws commute, and two that are the same cancel.
* `Display.afterDraws_perm`, `Display.afterDraws_of_even`, `Display.afterDraws_filter_ne` — the
  order of a list of draws does not matter, nor does a draw that is in it an even number of times.
* `Machine.draw?`, `Machine.DrawsOnly` — the draw that a step carries out, and histories in which
  nothing else happens to the display.
* `Machine.display_after` — the display after such a history.
* `Machine.step_step_of_draw` — two draws in a row that are the same.
* `draws_commute_and_cancel` — all of that in one statement.
-/

/-- A draw: the place on the display from which on a sprite is drawn, the address of the sprite in
memory, and how many rows it has.  Coordinates and addresses are taken round the edges of the
display and the end of memory, so that draws are the same if they come to the same. -/
structure Draw where
  /-- The column of the left edge. -/
  left : Fin 64
  /-- The row of the top edge. -/
  top : Fin 32
  /-- The cell of the first byte. -/
  start : Address
  /-- How many rows there are. -/
  rows : Fin 16
  deriving DecidableEq

namespace Draw

variable (s t : Draw) (sprites : Memory) (d : Display)

/-- The bytes that a draw finds in a memory. -/
def sprite (memory : Memory) : List UInt8 := memory.readFrom s.start.val s.rows.val

/-- The display after a draw, whose sprite is taken from a memory. -/
def onto : Display := (d.draw s.left.val s.top.val (s.sprite sprites)).display

theorem length_sprite_le : (s.sprite sprites).length ≤ 32 := by
  rw [sprite, Bank.length_readFrom]
  omega

theorem lit_onto {x y : Nat} (hx : x < 64) (hy : y < 32) :
    (s.onto sprites d).lit x y =
      (d.lit x y ^^ decide (Display.Covers s.left.val s.top.val (s.sprite sprites) x y)) :=
  Display.lit_draw _ _ _ (s.length_sprite_le sprites) hx hy

/-- Two draws commute. -/
theorem onto_comm : t.onto sprites (s.onto sprites d) = s.onto sprites (t.onto sprites d) := by
  apply Display.ext_lit
  intro x y hx hy
  rw [lit_onto _ _ _ hx hy, lit_onto _ _ _ hx hy, lit_onto _ _ _ hx hy, lit_onto _ _ _ hx hy,
    Bool.xor_right_comm]

/-- A draw is its own inverse. -/
theorem onto_onto : s.onto sprites (s.onto sprites d) = d :=
  Display.display_draw_draw _ _ _ (s.length_sprite_le sprites)

end Draw

/-! ### Lists of draws -/

namespace Display

variable (d : Display) (sprites : Memory)

/-- The display after draws, one after another, whose sprites are taken from one memory. -/
def afterDraws (draws : List Draw) : Display := draws.foldl (fun d s => s.onto sprites d) d

@[simp] theorem afterDraws_nil : d.afterDraws sprites [] = d := rfl

@[simp] theorem afterDraws_cons (s : Draw) (draws : List Draw) :
    d.afterDraws sprites (s :: draws) = (s.onto sprites d).afterDraws sprites draws := rfl

theorem afterDraws_append (first second : List Draw) :
    d.afterDraws sprites (first ++ second) =
      (d.afterDraws sprites first).afterDraws sprites second := by
  simp [afterDraws]

/-- The order of draws does not matter. -/
theorem afterDraws_perm {draws draws' : List Draw} (h : draws.Perm draws') :
    d.afterDraws sprites draws = d.afterDraws sprites draws' :=
  h.foldl_eq' (fun s _ t _ d => s.onto_comm t sprites d) d

/-- Draws of which each occurs an even number of times leave nothing behind. -/
theorem afterDraws_of_even {draws : List Draw} (even : ∀ s, draws.count s % 2 = 0) :
    d.afterDraws sprites draws = d := by
  -- the first draw occurs once more later on, so the two can be taken away
  induction len : draws.length using Nat.strongRecOn generalizing draws with
  | ind n ih =>
    cases draws with
    | nil => rfl
    | cons s rest =>
      have here := even s
      rw [List.count_cons_self] at here
      have again : s ∈ rest := List.count_pos_iff.mp (by omega)
      have pair : rest.Perm (s :: rest.erase s) := List.perm_cons_erase again
      have shorter : (rest.erase s).length < n := by
        rw [List.length_cons] at len
        have fewer := List.length_erase_of_mem again
        omega
      have left : ∀ t, (rest.erase s).count t % 2 = 0 := by
        intro t
        have whole := even t
        rw [List.count_cons, pair.count_eq, List.count_cons] at whole
        split at whole <;> omega
      rw [afterDraws_cons, afterDraws_perm _ _ pair, afterDraws_cons, s.onto_onto]
      exact ih _ shorter left rfl

/-- A draw that occurs an even number of times may be left out. -/
theorem afterDraws_filter_ne {draws : List Draw} {s : Draw} (even : draws.count s % 2 = 0) :
    d.afterDraws sprites draws = d.afterDraws sprites (draws.filter (· ≠ s)) := by
  have split : (List.replicate (draws.count s) s ++ draws.filter (· ≠ s)).Perm draws := by
    have parts := List.filter_append_perm (· = s) draws
    rw [List.filter_eq] at parts
    simpa only [decide_not] using parts
  have nothing : d.afterDraws sprites (List.replicate (draws.count s) s) = d := by
    apply afterDraws_of_even
    intro t
    rw [List.count_replicate]
    split <;> omega
  rw [← afterDraws_perm d sprites split, afterDraws_append, nothing]

end Display

/-! ### Draws of a machine -/

namespace Machine

variable {m : Machine} {x y : Register} {rows : Fin 16}

/-- The draw of the sprite that the index register points at, at the place that two registers
give. -/
def drawOf (m : Machine) (x y : Register) (rows : Fin 16) : Draw where
  left := Fin.ofNat 64 (m.reg x).toNat
  top := Fin.ofNat 32 (m.reg y).toNat
  start := Address.wrap m.index.toNat
  rows := rows

/-- The draw that the step of a machine carries out, if it carries one out. -/
def draw? (m : Machine) : Option Draw :=
  match m.activity, decode (m.fetch m.pc) with
  | .running, .draw x y rows => some (m.drawOf x y rows)
  | _, _ => none

/-- Whether the step of a machine blanks the display. -/
def Blanks (m : Machine) : Prop := m.activity = .running ∧ m.fetch m.pc = 0x00E0

instance (m : Machine) : Decidable m.Blanks := inferInstanceAs (Decidable (_ ∧ _))

/-- The draws that the steps of a history carry out, in order. -/
def draws (m : Machine) (history : List Operation) : List Draw :=
  (m.historyTrail history).filterMap draw?

/-- A history in which the display is only drawn on, with sprites that lie in one memory: it does
not restart the machine, no step blanks the display, and every draw finds the bytes of its sprite
as that memory has them. -/
structure DrawsOnly (m : Machine) (sprites : Memory) (history : List Operation) : Prop where
  /-- The machine is not restarted. -/
  calm : ∀ o ∈ history, ¬ o.Restarts
  /-- The display is not blanked. -/
  unblanked : ∀ b ∈ m.historyTrail history, ¬ b.Blanks
  /-- The bytes of sprites do not change between the draws. -/
  unchanged : ∀ b ∈ m.historyTrail history, ∀ s ∈ b.draw?, s.sprite b.memory = s.sprite sprites

theorem sprite_drawOf (m : Machine) (x y : Register) (rows : Fin 16) :
    (m.drawOf x y rows).sprite m.memory = m.spriteRows rows :=
  m.memory.readFrom_congr (Nat.mod_mod _ _) rows.val

theorem draw?_of_draw (running : m.activity = .running)
    (word : decode (m.fetch m.pc) = .draw x y rows) : m.draw? = some (m.drawOf x y rows) := by
  simp only [draw?, running, word]

theorem draw?_of_no_draw
    (other : ∀ x y rows, m.activity = .running → decode (m.fetch m.pc) ≠ .draw x y rows) :
    m.draw? = none := by
  unfold draw?
  split
  · next running word => exact absurd word (other _ _ _ running)
  · rfl

/-- The step of an instruction that draws does the draw. -/
theorem display_step_of_draw (running : m.activity = .running)
    (word : decode (m.fetch m.pc) = .draw x y rows) :
    m.step.machine.display = (m.drawOf x y rows).onto m.memory m.display := by
  obtain ⟨timeline, step⟩ := exists_timeline_step running word rfl
  rw [step, Draw.onto, sprite_drawOf]
  exact m.display_execute (.draw x y rows)

/-- A step that carries no draw out and does not blank the display leaves it alone. -/
theorem display_step_of_no_draw (unblanked : ¬ m.Blanks)
    (other : ∀ x y rows, m.activity = .running → decode (m.fetch m.pc) ≠ .draw x y rows) :
    m.step.machine.display = m.display := by
  have case := m.step_cases
  generalize m.step = o at case ⊢
  cases case with
  | refused | resumed | parked | stuck => rfl
  | executed running =>
    rw [display_complete, display_execute]
    split
    · next word => exact absurd ⟨running, (decode_eq_clear_iff _).mp word⟩ unblanked
    · next word => exact absurd word (other _ _ _ running)
    · rfl

/-- The display after a step is that before it with the draw that the step has carried out. -/
theorem display_step (unblanked : ¬ m.Blanks) {sprites : Memory}
    (unchanged : ∀ s ∈ m.draw?, s.sprite m.memory = s.sprite sprites) :
    m.step.machine.display = m.display.afterDraws sprites m.draw?.toList := by
  by_cases drawing : ∃ x y rows, m.activity = .running ∧ decode (m.fetch m.pc) = .draw x y rows
  · obtain ⟨x, y, rows, running, word⟩ := drawing
    have drawn := draw?_of_draw running word
    rw [display_step_of_draw running word, drawn, Draw.onto, unchanged _ drawn]
    rfl
  · have other : ∀ x y rows, m.activity = .running → decode (m.fetch m.pc) ≠ .draw x y rows :=
      fun x y rows running word => drawing ⟨x, y, rows, running, word⟩
    rw [display_step_of_no_draw unblanked other, draw?_of_no_draw other]
    rfl

/-- A run that only draws leaves the display as its draws do. -/
theorem display_of_passage {allowed : Operation → Prop} {sprites : Memory} {last : Machine}
    {trail : List Machine} (h : Passage allowed m trail last)
    (unblanked : ∀ b ∈ trail, ¬ b.Blanks)
    (unchanged : ∀ b ∈ trail, ∀ s ∈ b.draw?, s.sprite b.memory = s.sprite sprites) :
    last.display = m.display.afterDraws sprites (trail.filterMap draw?) := by
  induction h with
  | refl => rfl
  | @step m last trail _ ih =>
    have later := ih (fun b mem => unblanked b (List.mem_cons_of_mem m mem))
      fun b mem => unchanged b (List.mem_cons_of_mem m mem)
    have here := display_step (unblanked m List.mem_cons_self) (unchanged m List.mem_cons_self)
    have split : (m :: trail).filterMap draw? = m.draw?.toList ++ trail.filterMap draw? := by
      cases drawn : m.draw? <;> simp [drawn]
    rw [later, here, split, Display.afterDraws_append]
  | countDown _ ih => exact ih unblanked unchanged
  | frames _ _ ih => exact ih unblanked unchanged
  | keys _ _ ih => exact ih unblanked unchanged
  | dialect _ _ ih => exact ih unblanked unchanged
  | traceLimit _ _ _ ih => exact ih unblanked unchanged
  | poke _ _ _ _ ih => exact ih unblanked unchanged

/-- So does a history that only draws. -/
theorem display_after {sprites : Memory} {history : List Operation}
    (h : m.DrawsOnly sprites history) :
    (m.after history).display = m.display.afterDraws sprites (m.draws history) := by
  have passage : Passage (fun _ => True) m (m.historyTrail history) (m.after history) :=
    passage_history (fun _ _ => trivial) h.calm m
  exact display_of_passage passage h.unblanked h.unchanged

/-! ### The same draw twice -/

/-- A sprite covers a pixel just if one of its bytes has a bit in it. -/
theorem exists_spriteCovers_iff (m : Machine) (x y : Register) (rows : Fin 16) :
    (∃ px py : Nat, px < 64 ∧ py < 32 ∧ m.SpriteCovers x y rows px py) ↔
      ∃ row < rows.val, m.memory.read (Address.wrap (m.index.toNat + row)) ≠ 0 := by
  constructor
  · rintro ⟨px, py, -, -, row, inside, bit, -, -, -, set⟩
    refine ⟨row, inside, ?_⟩
    intro zero
    rw [zero] at set
    simp at set
  · rintro ⟨row, inside, nonzero⟩
    let byte := m.memory.read (Address.wrap (m.index.toNat + row))
    have some : byte.toNat ≠ 0 := fun zero => nonzero (UInt8.toNat_inj.mp zero)
    obtain ⟨place, set⟩ := Nat.exists_testBit_of_ne_zero some
    have small : place < 8 := by
      by_contra large
      have bound : byte.toNat < 2 ^ place :=
        Nat.lt_of_lt_of_le byte.toNat_lt (Nat.pow_le_pow_right (by decide) (by omega))
      rw [Nat.testBit_lt_two_pow bound] at set
      cases set
    refine ⟨_, _, Nat.mod_lt _ (by decide), Nat.mod_lt _ (by decide), row, inside, 7 - place,
      by omega, rfl, rfl, ?_⟩
    rw [Nat.sub_sub_self (by omega)]
    exact set

/-- The sprite covers the same pixels of two machines that have the same coordinates, the same
index register and the same memory. -/
theorem spriteCovers_congr {m m' : Machine} (x y : Register) (rows : Fin 16)
    (left : m'.reg x = m.reg x) (top : m'.reg y = m.reg y) (index : m'.index = m.index)
    (memory : m'.memory = m.memory) (px py : Nat) :
    m'.SpriteCovers x y rows px py ↔ m.SpriteCovers x y rows px py := by
  unfold SpriteCovers
  rw [left, top, index, memory]

/-- Two draws in a row that are the same: the second one restores the display, and finds a lit
pixel just where the first one has found an unlit one. -/
theorem step_step_of_draw (running : m.activity = .running)
    (word : decode (m.fetch m.pc) = .draw x y rows)
    (again : decode (m.fetch m.next.pc) = .draw x y rows) (hx : x ≠ Register.flag)
    (hy : y ≠ Register.flag) :
    let once := m.step.machine
    let twice := once.step.machine
    let unlit := ∃ px py : Nat, px < 64 ∧ py < 32 ∧ m.display.lit px py = false ∧
      m.SpriteCovers x y rows px py
    once.step.fault? = none ∧ twice.display = m.display ∧
      (unlit → twice.reg Register.flag = 1) ∧ (¬ unlit → twice.reg Register.flag = 0) := by
  intro once twice unlit
  obtain ⟨-, running', others, index, memory, -, pc⟩ := frame_step_of_draw running word
  have left : once.reg x = m.reg x := others x hx
  have top : once.reg y = m.reg y := others y hy
  -- the second draw finds what the first one has found, except for the display
  have word' : decode (once.fetch once.pc) = .draw x y rows := by
    rw [fetch, memory, pc]
    exact again
  have same : once.drawOf x y rows = m.drawOf x y rows := by
    unfold drawOf
    rw [left, top, index]
  have covers := spriteCovers_congr x y rows left top index memory
  obtain ⟨calm, -⟩ := frame_step_of_draw running' word'
  have flag := flag_step_of_draw running' word'
  have met : (∃ px py : Nat, px < 64 ∧ py < 32 ∧ once.display.lit px py = true ∧
      once.SpriteCovers x y rows px py) ↔ unlit := by
    refine exists_congr fun px => exists_congr fun py => and_congr_right fun hpx =>
      and_congr_right fun hpy => ?_
    rw [covers, lit_step_of_draw running word hpx hpy]
    by_cases covered : m.SpriteCovers x y rows px py <;> simp [covered]
  have collided := (once.collided_spriteRows_iff x y rows).trans met
  refine ⟨calm, ?_, ?_, ?_⟩
  · rw [display_step_of_draw running' word', display_step_of_draw running word, same, memory,
      Draw.onto_onto]
  · intro some
    rw [flag, collided.mpr some]
    rfl
  · intro none
    rw [flag, Bool.eq_false_iff.mpr (mt collided.mp none)]
    rfl

end Machine

/-- Drawing is the action of a group in which every draw is its own inverse.  Over a history in
which the display is only drawn on, with sprites that do not change, the display that comes out is
the one that the draws make of the display at the beginning; the draws may be put in any order, and
every draw that occurs an even number of times may be left out.  Let a machine run and come to two
words in a row that draw the same sprite at the place that two registers other than the flag give.
The second one restores the display, and leaves the flag at one if the sprite covers a pixel that
was unlit before the first one, and at zero otherwise; if the display was unlit under the sprite,
that is to say at one just if the sprite has a bit that is set. -/
theorem draws_commute_and_cancel :
    (∀ (m : Machine) (sprites : Memory) (history : List Operation),
      m.DrawsOnly sprites history →
        (m.after history).display = m.display.afterDraws sprites (m.draws history)) ∧
    (∀ (d : Display) (sprites : Memory) (draws draws' : List Draw), draws.Perm draws' →
      d.afterDraws sprites draws = d.afterDraws sprites draws') ∧
    (∀ (d : Display) (sprites : Memory) (draws : List Draw) (s : Draw),
      draws.count s % 2 = 0 →
        d.afterDraws sprites draws = d.afterDraws sprites (draws.filter (· ≠ s))) ∧
    (∀ (m : Machine) (x y : Register) (rows : Fin 16), m.activity = .running →
      (m.fetch m.pc).toNat = 0xD000 + x.val * 0x100 + y.val * 0x10 + rows.val →
      m.fetch m.next.pc = m.fetch m.pc → x ≠ Register.flag → y ≠ Register.flag →
        let once := m.step
        let twice := once.machine.step
        let unlit := ∃ px py : Nat, px < 64 ∧ py < 32 ∧ m.display.lit px py = false ∧
          m.SpriteCovers x y rows px py
        (once.fault? = none ∧ twice.fault? = none) ∧ twice.machine.display = m.display ∧
          (unlit → twice.machine.reg Register.flag = 1) ∧
          (¬ unlit → twice.machine.reg Register.flag = 0) ∧
          ((∀ px py : Nat, px < 64 → py < 32 → m.SpriteCovers x y rows px py →
              m.display.lit px py = false) →
            (twice.machine.reg Register.flag = 1 ↔
              ∃ row < rows.val, m.memory.read (Address.wrap (m.index.toNat + row)) ≠ 0))) := by
  refine ⟨fun m sprites history h => Machine.display_after h,
    fun d sprites draws draws' h => Display.afterDraws_perm d sprites h,
    fun d sprites draws s even => Display.afterDraws_filter_ne d sprites even, ?_⟩
  intro m x y rows running word again hx hy once twice unlit
  have first := decode_of_toNat_eq_draw word
  have second : decode (m.fetch m.next.pc) = .draw x y rows := by rw [again, first]
  obtain ⟨calm, -⟩ := Machine.frame_step_of_draw running first
  obtain ⟨calm', restored, some, none⟩ := Machine.step_step_of_draw running first second hx hy
  refine ⟨⟨calm, calm'⟩, restored, some, none, ?_⟩
  intro blank
  rw [← m.exists_spriteCovers_iff x y rows]
  constructor
  · intro one
    by_contra nothing
    have zero := none fun ⟨px, py, hpx, hpy, _, covers⟩ => nothing ⟨px, py, hpx, hpy, covers⟩
    rw [zero] at one
    cases one
  · rintro ⟨px, py, hpx, hpy, covers⟩
    exact some ⟨px, py, hpx, hpy, blank px py hpx hpy covers, covers⟩

/-- A program draws a sprite over the bottom edge, another one that has a pixel in common with it,
and the first one again: the second one is left.  Then the first one is drawn two times in a row.
It goes out, and its pixels at the top of the display account for the flag. -/
theorem draws_commute_and_cancel_common_pixel :
    let m := (Machine.powerOn {} 0 default).after
      [.load [0x60, 0x1E, 0x61, 0x1F, 0xA2, 0x10, 0xD0, 0x12, 0xD1, 0x02, 0xD0, 0x12, 0xD0, 0x12,
        0xD0, 0x12, 0xF0, 0x90]]
    let history : List Operation := [.step, .frame 4, .key 3 true, .step]
    let s : Draw := { left := 30, top := 31, start := 0x210, rows := 2 }
    let t : Draw := { left := 31, top := 30, start := 0x210, rows := 2 }
    let n := m.after history
    (m.draws history = [s, t, s] ∧ n.display = m.display.afterDraws m.memory [t]) ∧
      n.step.machine.step.machine.display = n.display ∧
      n.step.machine.step.machine.reg Register.flag = 1 := by
  intro m history s t n
  have facts : (∀ o ∈ history, ¬ o.Restarts) ∧ (∀ b ∈ m.historyTrail history, ¬ b.Blanks) ∧
      (∀ b ∈ m.historyTrail history, ∀ d ∈ b.draw?, d.sprite b.memory = d.sprite m.memory) ∧
      m.draws history = [s, t, s] := by
    decide +kernel
  have pair : n.activity = .running ∧ (n.fetch n.pc).toNat = 0xD012 ∧
      n.fetch n.next.pc = n.fetch n.pc ∧ n.display.lit (30 : Nat) (0 : Nat) = false ∧
      n.SpriteCovers 0 1 2 30 0 := by
    decide +kernel
  obtain ⟨calm, unblanked, unchanged, drawn⟩ := facts
  obtain ⟨running, word, again, unlit, covers⟩ := pair
  obtain ⟨runs, -, cancels, twice⟩ := draws_commute_and_cancel
  refine ⟨⟨drawn, ?_⟩, ?_⟩
  · have alone : ([s, t, s].filter (· ≠ s)) = [t] := by decide
    rw [runs m m.memory history ⟨calm, unblanked, unchanged⟩, drawn,
      cancels _ _ [s, t, s] s (by decide), alone]
  · obtain ⟨-, restored, lit, -⟩ := twice n 0 1 2 running word again (by decide) (by decide)
    exact ⟨restored, lit ⟨30, 0, by decide, by decide, unlit, covers⟩⟩

end Chip8
