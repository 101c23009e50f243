import Chip8.Demo
import Chip8.Proofs.Drawing
import Chip8.Proofs.Histories
import Chip8.Proofs.Loading

namespace Chip8

/-!
# The demo at work

The demo is eighteen instructions that never end: it draws a digit, waits for the timer in a loop,
erases the digit, and goes on with the next one.  How long it stays in the loop depends on when the
timers go down, so nothing can be said of the number of steps; but something holds before each
instruction whenever the machine gets there.

* `Demo.decode_wordAt_place`, `Demo.readFrom_glyphPlace` — its instructions and the glyphs in
  memory.
* `Demo.Before` — what holds before each instruction.
* `Demo.leads_execute` — every instruction leads to one before which that holds again.
* `Demo.Runs`, `Demo.Runs.step` — a machine that runs the demo does so after every step.
* `demo_runs_forever` — so it never faults, waits or halts, and shows one digit or nothing.
-/

namespace Demo

/-! ### The demo in memory -/

/-- The memory of a machine into which the demo has been loaded. -/
def memory : Memory := Memory.initial.writeFrom programStart program

/-- The address of an instruction of the demo. -/
def place (k : Nat) : UInt16 := UInt16.ofNat (programStart + 2 * k)

theorem toNat_place {k : Nat} (inside : k < 18) : (place k).toNat = 0x200 + 2 * k := by
  simp only [place, programStart, UInt16.toNat_ofNat']
  omega

/-- A byte of the demo is found at its place. -/
theorem read_memory {k : Nat} (inside : k < 36) :
    memory.read (Address.wrap (programStart + k)) = program.getD k 0 := by
  have bound : k < program.length := by rwa [length_program]
  have found := Bank.read_writeFrom_of_lt Memory.initial programStart program (by decide) k bound
  rw [List.getD_eq_getElem?_getD, List.getElem?_eq_getElem bound]
  exact found

/-- At the place of an instruction lies its word. -/
theorem decode_wordAt_place {k : Nat} (inside : k < 18) :
    some (decode (memory.wordAt (place k))) = instructions[k]? := by
  have words : ∀ k : Fin 18,
      some (decode (wordOfBytes (program.getD (2 * k) 0) (program.getD (2 * k + 1) 0))) =
        instructions[k.val]? := by decide
  rw [Bank.wordAt, toNat_place inside, show 0x200 = programStart from rfl, Nat.add_assoc,
    read_memory (by omega), read_memory (by omega)]
  exact words ⟨k, inside⟩

/-- The next instruction lies after two bytes. -/
theorem addressAfter_place {k count : Nat} (inside : k + count < 18) :
    addressAfter (place k) (2 * count) = place (k + count) := by
  apply UInt16.toNat_inj.mp
  rw [toNat_addressAfter, toNat_place (by omega), toNat_place inside]
  omega

/-! ### Glyphs -/

/-- The bytes of a glyph. -/
def glyphRows (digit : UInt8) : List UInt8 := (font.drop (digit.toNat * glyphSize)).take glyphSize

/-- The address of a glyph, as the index register holds it. -/
def glyphPlace (digit : UInt8) : UInt16 := UInt16.ofNat (fontBase + digit.toNat * glyphSize)

/-- The display that shows a glyph at the place of the demo, and nothing else. -/
def picture (digit : UInt8) : Display := (Display.blank.draw 28 13 (glyphRows digit)).display

/-- Whether a glyph at the place of the demo has a pixel. -/
def GlyphLit (digit : UInt8) (x y : Nat) : Prop :=
  (28 ≤ x ∧ x < 36) ∧ (13 ≤ y ∧ y < 18) ∧
    (font.getD (digit.toNat * 5 + (y - 13)) 0).toNat.testBit (7 - (x - 28)) = true

instance (digit : UInt8) (x y : Nat) : Decidable (GlyphLit digit x y) :=
  inferInstanceAs (Decidable (_ ∧ _ ∧ _))

variable {digit : UInt8}

theorem length_glyphRows (small : digit ≤ 15) : (glyphRows digit).length = 5 := by
  have bound : digit.toNat ≤ 15 := UInt8.le_iff_toNat_le.mp small
  rw [glyphRows, List.length_take, List.length_drop, length_font, glyphSize]
  omega

theorem getElem?_glyphRows (digit : UInt8) {row : Nat} (inside : row < 5) :
    (glyphRows digit)[row]? = font[digit.toNat * 5 + row]? := by
  simp only [glyphRows, glyphSize, List.getElem?_take, inside, if_true, List.getElem?_drop]

/-- The glyphs lie in memory below the demo. -/
theorem read_font {k : Nat} (inside : k < 80) :
    some (memory.read (Address.wrap (fontBase + k))) = font[k]? := by
  have bound : k < font.length := by rwa [length_font]
  rw [List.getElem?_eq_getElem bound, memory, Bank.read_writeFrom_of_ne]
  · exact congrArg some (Bank.read_writeFrom_of_lt _ _ _ (by decide) k bound)
  · intro j below same
    have same : (programStart + j) % 4096 = (fontBase + k) % 4096 := congrArg Fin.val same
    rw [length_program] at below
    simp only [programStart, fontBase] at same
    omega

/-- What the index register points at once it has been set to a glyph. -/
theorem readFrom_glyphPlace (small : digit ≤ 15) :
    memory.readFrom (glyphPlace digit).toNat 5 = glyphRows digit := by
  have bound : digit.toNat ≤ 15 := UInt8.le_iff_toNat_le.mp small
  have start : (glyphPlace digit).toNat = fontBase + digit.toNat * 5 := by
    simp only [glyphPlace, fontBase, glyphSize, UInt16.toNat_ofNat']
    omega
  apply List.ext_getElem?
  intro row
  by_cases inside : row < 5
  · rw [Bank.getElem?_readFrom _ _ inside, start, Nat.add_assoc, getElem?_glyphRows digit inside]
    exact read_font (by omega)
  · rw [List.getElem?_eq_none, List.getElem?_eq_none]
    · rw [length_glyphRows small]
      omega
    · rw [Bank.length_readFrom]
      omega

/-- The picture of a glyph has the pixels of the glyph. -/
theorem lit_picture (small : digit ≤ 15) {x y : Nat} (hx : x < 64) (hy : y < 32) :
    (picture digit).lit x y = decide (GlyphLit digit x y) := by
  have fits : (glyphRows digit).length ≤ 32 := by
    rw [length_glyphRows small]
    decide
  have pixels : Display.Covers 28 13 (glyphRows digit) x y ↔ GlyphLit digit x y := by
    unfold Display.Covers GlyphLit
    rw [length_glyphRows small]
    constructor
    · rintro ⟨row, low, column, inside, across, down, set⟩
      rw [List.getD_eq_getElem?_getD, getElem?_glyphRows digit low] at set
      have row_eq : y - 13 = row := by omega
      have column_eq : x - 28 = column := by omega
      refine ⟨by omega, by omega, ?_⟩
      rwa [row_eq, column_eq, List.getD_eq_getElem?_getD]
    · rintro ⟨across, down, set⟩
      refine ⟨y - 13, by omega, x - 28, by omega, by omega, by omega, ?_⟩
      rwa [List.getD_eq_getElem?_getD, getElem?_glyphRows digit (by omega),
        ← List.getD_eq_getElem?_getD]
  rw [picture, Display.lit_draw _ _ _ fits hx hy, Display.lit, Display.isLit_blank, Bool.false_xor,
    decide_eq_decide.mpr pixels]

/-! ### What holds at each place -/

/-- What holds before an instruction of the demo.  A glyph is on the display from the instruction
after the one that draws it to the one that erases it. -/
structure Before (k : Nat) (m : Machine) : Prop where
  /-- The digit is one, except for as long as it has been counted up and not yet been cut. -/
  digit : k ≠ 15 → k ≠ 16 → m.reg 0 ≤ 15 := by omega
  /-- The column is set up once. -/
  column : 3 ≤ k → m.reg 1 = 28 := by omega
  /-- So is the row. -/
  row : 4 ≤ k → m.reg 2 = 13 := by omega
  /-- The index register points at the glyph that is to be drawn or erased. -/
  sprite : 5 ≤ k → k ≤ 13 → m.index = glyphPlace (m.reg 0) := by omega
  /-- The digit is cut by a mask. -/
  mask : k = 16 → m.reg 5 = 15 := by omega
  /-- The display shows the digit or nothing. -/
  display : m.display = if 6 ≤ k ∧ k ≤ 13 then picture (m.reg 0) else .blank

variable {m m' : Machine}

/-- While the digit is shown, nothing changes that matters for it. -/
theorem Before.keep {k k' : Nat} (h : Before k m) (shown : 6 ≤ k ∧ k ≤ 13)
    (shown' : 6 ≤ k' ∧ k' ≤ 13) (registers : ∀ x : Register, x < 3 → m'.reg x = m.reg x)
    (index : m'.index = m.index) (display : m'.display = m.display) : Before k' m' where
  digit _ _ := by
    rw [registers 0 (by decide)]
    exact h.digit (by omega) (by omega)
  column _ := (registers 1 (by decide)).trans (h.column (by omega))
  row _ := (registers 2 (by decide)).trans (h.row (by omega))
  sprite _ _ := by
    rw [index, registers 0 (by decide)]
    exact h.sprite (by omega) (by omega)
  display := by
    rw [display, h.display, if_pos shown, if_pos shown', registers 0 (by decide)]

/-- A write to one of the other registers does not matter for the digit. -/
theorem reg_setReg_of_lt (m : Machine) {x : Register} (other : 3 ≤ x) (value : UInt8)
    {y : Register} (low : y < 3) : (m.next.setReg x value).reg y = m.reg y :=
  m.next.reg_setReg_of_ne (Fin.ne_of_gt (Fin.lt_of_lt_of_le low other)) value

/-- The digit points the index register at its glyph. -/
theorem index_execute_glyph (small : m.reg 0 ≤ 15) :
    (m.execute (.glyph 0)).index = glyphPlace (m.reg 0) := by
  have bound : (m.reg 0).toNat ≤ 15 := UInt8.le_iff_toNat_le.mp small
  have key : (m.namedKey 0).val = (m.reg 0).toNat := Nat.mod_eq_of_lt (by omega)
  show UInt16.ofNat (fontBase + (m.namedKey 0).val * glyphSize) = _
  rw [key, glyphPlace]

/-- Whether a machine is at a place of the demo, and what holds before the instruction there
holds. -/
def Leads (m : Machine) : Prop := ∃ k < 18, m.pc = place k ∧ Before k m

/-- An instruction that does not jump leads to the place after it. -/
theorem leads_onward {k : Nat} (pc : m.pc = place k) (next : m'.pc = m.next.pc) (room : k + 1 < 18)
    (holds : Before (k + 1) m') : Leads m' := by
  refine ⟨k + 1, room, ?_, holds⟩
  rw [next, ← addressAfter_place room, ← pc]
  rfl

/-- The first instructions blank the display and set up the digit and its place. -/
theorem leads_setUp {k : Nat} {i : Instruction} (h : Before k m) (pc : m.pc = place k)
    (here : instructions[k]? = some i) (early : k < 4) : Leads (m.execute i) := by
  match k, early with
  | 0, _ =>
    cases here
    have digit : m.reg 0 ≤ 15 := h.digit (by decide) (by decide)
    exact leads_onward pc rfl (by decide) { digit := fun _ _ => digit, display := rfl }
  | 1, _ =>
    cases here
    have digit : (m.next.setReg 0 0).reg 0 ≤ 15 := by
      rw [Machine.reg_setReg_self]
      decide
    exact leads_onward pc rfl (by decide) { digit := fun _ _ => digit, display := h.display }
  | 2, _ =>
    cases here
    have digit : (m.next.setReg 1 28).reg 0 ≤ 15 := by
      rw [Machine.reg_setReg_of_ne _ (by decide)]
      exact h.digit (by decide) (by decide)
    have column : (m.next.setReg 1 28).reg 1 = 28 := Machine.reg_setReg_self ..
    exact leads_onward pc rfl (by decide)
      { digit := fun _ _ => digit, column := fun _ => column, display := h.display }
  | 3, _ =>
    cases here
    have digit : (m.next.setReg 2 13).reg 0 ≤ 15 := by
      rw [Machine.reg_setReg_of_ne _ (by decide)]
      exact h.digit (by decide) (by decide)
    have column : (m.next.setReg 2 13).reg 1 = 28 := by
      rw [Machine.reg_setReg_of_ne _ (by decide)]
      exact h.column (by decide)
    have row : (m.next.setReg 2 13).reg 2 = 13 := Machine.reg_setReg_self ..
    exact leads_onward pc rfl (by decide)
      { digit := fun _ _ => digit, column := fun _ => column, row := fun _ => row,
        display := h.display }

/-- The display turns from blank to the digit, and back. -/
theorem leads_draw {k : Nat} (h : Before k m) (pc : m.pc = place k) (here : k = 5 ∨ k = 13)
    (memory : m.memory = Demo.memory) : Leads (m.execute (.draw 1 2 5)) := by
  have rows : m.spriteRows 5 = glyphRows (m.reg 0) := by
    rw [Machine.spriteRows, memory, h.sprite (by omega) (by omega)]
    exact readFrom_glyphPlace (h.digit (by omega) (by omega))
  have display : (m.execute (.draw 1 2 5)).display =
      (m.display.draw 28 13 (glyphRows (m.reg 0))).display := by
    rw [m.execute_draw, rows, h.column (by omega), h.row (by omega)]
    rfl
  have kept (x : Register) (other : Register.flag ≠ x) :
      (m.execute (.draw 1 2 5)).reg x = m.reg x := m.next.reg_setReg_of_ne other _
  have digit : (m.execute (.draw 1 2 5)).reg 0 ≤ 15 := by
    rw [kept 0 (by decide)]
    exact h.digit (by omega) (by omega)
  have column := (kept 1 (by decide)).trans (h.column (by omega))
  have row := (kept 2 (by decide)).trans (h.row (by omega))
  rcases here with rfl | rfl
  · have blank : m.display = .blank := h.display
    have shown : (m.execute (.draw 1 2 5)).display =
        picture ((m.execute (.draw 1 2 5)).reg 0) := by
      rw [display, blank, kept 0 (by decide), picture]
    have sprite : (m.execute (.draw 1 2 5)).index =
        glyphPlace ((m.execute (.draw 1 2 5)).reg 0) := by
      rw [kept 0 (by decide)]
      exact h.sprite (by decide) (by decide)
    exact leads_onward pc rfl (by decide)
      { digit := fun _ _ => digit, column := fun _ => column, row := fun _ => row,
        sprite := fun _ _ => sprite, display := shown }
  · -- the sprite is the one that is on the display, so it goes out
    have blank : (m.execute (.draw 1 2 5)).display = .blank := by
      have shown : m.display = picture (m.reg 0) := h.display
      have fits : (glyphRows (m.reg 0)).length ≤ 32 := by
        rw [length_glyphRows (h.digit (by decide) (by decide))]
        decide
      rw [display, shown, picture, Display.display_draw_draw _ _ _ fits]
    exact leads_onward pc rfl (by decide)
      { digit := fun _ _ => digit, column := fun _ => column, row := fun _ => row,
        display := blank }

/-- While the digit is shown, the demo gets to the instruction that erases it, through a loop in
which it waits for the timer. -/
theorem leads_shown {k : Nat} {i : Instruction} (h : Before k m) (pc : m.pc = place k)
    (here : instructions[k]? = some i) (shown : 6 ≤ k ∧ k ≤ 12) : Leads (m.execute i) := by
  match k, shown with
  | 6, _ =>
    cases here
    exact leads_onward pc rfl (by decide)
      (h.keep (by decide) (by decide) (fun _ => reg_setReg_of_lt m (by decide) 30) rfl rfl)
  | 7, _ =>
    cases here
    exact leads_onward pc rfl (by decide)
      (h.keep (by decide) (by decide) (fun _ _ => rfl) rfl rfl)
  | 8, _ =>
    cases here
    exact leads_onward pc rfl (by decide)
      (h.keep (by decide) (by decide) (fun _ => reg_setReg_of_lt m (by decide) 4) rfl rfl)
  | 9, _ =>
    cases here
    exact leads_onward pc rfl (by decide)
      (h.keep (by decide) (by decide) (fun _ _ => rfl) rfl rfl)
  | 10, _ =>
    cases here
    exact leads_onward pc rfl (by decide)
      (h.keep (by decide) (by decide) (fun _ => reg_setReg_of_lt m (by decide) m.delay) rfl rfl)
  | 11, _ =>
    cases here
    have kept (k' : Nat) (shown' : 6 ≤ k' ∧ k' ≤ 13) : Before k' (m.execute (.skipIfByte 3 0)) :=
      h.keep (by decide) shown' (fun _ _ => rfl) rfl rfl
    -- the loop is left once the timer has run out
    cases elapsed : m.reg 3 == 0 with
    | false =>
      refine leads_onward pc ?_ (by decide) (kept 12 (by decide))
      simp only [Machine.execute, Machine.skipIf, elapsed]
      rfl
    | true =>
      refine ⟨13, by decide, ?_, kept 13 (by decide)⟩
      have two : addressAfter m.pc (2 * 2) = place 13 := by rw [pc, addressAfter_place (by decide)]
      rw [← two]
      simp only [Machine.execute, Machine.skipIf, elapsed]
      rfl
  | 12, _ =>
    cases here
    exact ⟨10, by decide, rfl, h.keep (by decide) (by decide) (fun _ _ => rfl) rfl rfl⟩

/-- Between two digits the demo counts on and points the index register at the next glyph. -/
theorem leads_nextDigit {k : Nat} {i : Instruction} (h : Before k m) (pc : m.pc = place k)
    (here : instructions[k]? = some i) (between : k = 4 ∨ 14 ≤ k) : Leads (m.execute i) := by
  have inside : k < 18 := (List.getElem?_eq_some_iff.mp here).1
  have column : m.reg 1 = 28 := h.column (by omega)
  have row : m.reg 2 = 13 := h.row (by omega)
  have column' (x : Register) (value : UInt8) (other : x ≠ 1) :
      (m.next.setReg x value).reg 1 = 28 := (m.next.reg_setReg_of_ne other value).trans column
  have row' (x : Register) (value : UInt8) (other : x ≠ 2) :
      (m.next.setReg x value).reg 2 = 13 := (m.next.reg_setReg_of_ne other value).trans row
  have places : k = 4 ∨ k = 14 ∨ k = 15 ∨ k = 16 ∨ k = 17 := by omega
  rcases places with rfl | rfl | rfl | rfl | rfl <;> cases here
  · have digit : m.reg 0 ≤ 15 := h.digit (by decide) (by decide)
    exact leads_onward pc rfl (by decide)
      { digit := fun _ _ => digit, column := fun _ => column, row := fun _ => row,
        sprite := fun _ _ => index_execute_glyph digit, display := h.display }
  · exact leads_onward pc rfl (by decide)
      { column := fun _ => column' 0 _ (by decide), row := fun _ => row' 0 _ (by decide),
        display := h.display }
  · exact leads_onward pc rfl (by decide)
      { column := fun _ => column' 5 _ (by decide), row := fun _ => row' 5 _ (by decide),
        mask := fun _ => m.next.reg_setReg_self 5 15, display := h.display }
  · -- the mask makes a digit of what has been counted up
    have cut : (m.next.setReg 0 (m.reg 0 &&& m.reg 5)).reg 0 ≤ 15 := by
      rw [Machine.reg_setReg_self, h.mask rfl, UInt8.le_iff_toNat_le, UInt8.toNat_and]
      exact Nat.and_le_right
    exact leads_onward pc rfl (by decide)
      { digit := fun _ _ => cut, column := fun _ => column' 0 _ (by decide),
        row := fun _ => row' 0 _ (by decide), display := h.display }
  · have digit : m.reg 0 ≤ 15 := h.digit (by decide) (by decide)
    exact ⟨4, by decide, rfl,
      { digit := fun _ _ => digit, column := fun _ => column, row := fun _ => row,
        display := h.display }⟩

/-- From each place the demo gets to a place. -/
theorem leads_execute {k : Nat} {i : Instruction} (h : Before k m)
    (memory : m.memory = Demo.memory) (pc : m.pc = place k) (here : instructions[k]? = some i) :
    Leads (m.execute i) := by
  by_cases early : k < 4
  · exact leads_setUp h pc here early
  by_cases shown : 6 ≤ k ∧ k ≤ 12
  · exact leads_shown h pc here shown
  by_cases draws : k = 5 ∨ k = 13
  · have draw : i = .draw 1 2 5 := by rcases draws with rfl | rfl <;> cases here <;> rfl
    rw [draw]
    exact leads_draw h pc draws memory
  · exact leads_nextDigit h pc here (by omega)

/-! ### The demo at work -/

/-- Whether a machine runs the demo. -/
structure Runs (m : Machine) : Prop where
  /-- It runs. -/
  running : m.activity = .running
  /-- It is in no subroutine. -/
  calls : m.calls = .empty
  /-- The demo is in memory. -/
  memory : m.memory = Demo.memory
  /-- It is at a place of the demo. -/
  leads : Leads m

/-- The demo has no instruction that could be refused, that touches the call stack or memory, or
that waits for a key. -/
theorem quiet_of_mem {i : Instruction} (here : i ∈ instructions) (m : Machine) :
    m.refusal? i = none ∧ (m.execute i).activity = m.activity ∧
      (m.execute i).calls = m.calls ∧ (m.execute i).memory = m.memory := by
  simp only [instructions, List.mem_cons, List.not_mem_nil, or_false] at here
  rcases here with rfl | rfl | rfl | rfl | rfl | rfl | rfl | rfl | rfl | rfl | rfl | rfl | rfl |
    rfl | rfl | rfl | rfl | rfl
  all_goals exact ⟨rfl, rfl, rfl, rfl⟩

/-- What is recorded does not matter for the demo, nor do the timers, the keys, the dialect and the
number of frames. -/
theorem Runs.congr (h : Runs m) (activity : m'.activity = m.activity) (calls : m'.calls = m.calls)
    (memory : m'.memory = m.memory) (pc : m'.pc = m.pc) (registers : m'.registers = m.registers)
    (index : m'.index = m.index) (display : m'.display = m.display) : Runs m' := by
  have reg (x : Register) : m'.reg x = m.reg x := congrArg (Bank.read · x) registers
  obtain ⟨k, inside, here, before⟩ := h.leads
  refine ⟨activity.trans h.running, calls.trans h.calls, memory.trans h.memory, k, inside,
    pc.trans here, ?_⟩
  constructor <;> simp only [reg, index, display]
  · exact before.digit
  · exact before.column
  · exact before.row
  · exact before.sprite
  · exact before.mask
  · exact before.display

/-- A step of the demo reports no fault, and the demo goes on. -/
theorem Runs.step (h : Runs m) : m.step.fault? = none ∧ Runs m.step.machine := by
  obtain ⟨k, inside, here, before⟩ := h.leads
  have word : some (decode (m.fetch m.pc)) = instructions[k]? := by
    rw [Machine.fetch, h.memory, here, decode_wordAt_place inside]
  obtain ⟨accepted, activity, calls, memory⟩ := quiet_of_mem (List.mem_of_getElem? word.symm) m
  obtain ⟨timeline, step⟩ := Machine.exists_timeline_step h.running rfl accepted
  have leads := leads_execute before h.memory here word.symm
  rw [step]
  have after : Runs (m.execute (decode (m.fetch m.pc))) :=
    ⟨activity.trans h.running, calls.trans h.calls, memory.trans h.memory, leads⟩
  exact ⟨rfl, after.congr rfl rfl rfl rfl rfl rfl rfl⟩

/-- Nothing that is done to the machine between steps gets in the way of the demo. -/
theorem keptBetweenSteps_runs : Machine.KeptBetweenSteps (·.leavesMemory = true) Runs where
  countDown h := h.congr rfl rfl rfl rfl rfl rfl rfl
  frames _ h := h.congr rfl rfl rfl rfl rfl rfl rfl
  keys _ h := h.congr rfl rfl rfl rfl rfl rfl rfl
  dialect _ h := h.congr rfl rfl rfl rfl rfl rfl rfl
  traceLimit _ h := h.congr rfl rfl rfl rfl rfl rfl rfl
  poke _ _ ok _ := by cases ok

/-- The demo fits into memory. -/
theorem program_fits : program.length ≤ programCapacity := by
  rw [length_program]
  decide

/-- A machine into which the demo has been loaded is at its first instruction. -/
theorem runs_load (m : Machine) : Runs (m.load program).machine := by
  rw [m.load_of_fits program_fits]
  have digit : Machine.reg (m.load program).machine 0 ≤ 15 := by
    rw [m.load_of_fits program_fits]
    show Bank.blank.read 0 ≤ 15
    rw [Bank.read_blank]
    decide
  rw [m.load_of_fits program_fits] at digit
  exact ⟨rfl, rfl, rfl, 0, by decide, rfl, { digit := fun _ _ => digit, display := rfl }⟩

/-- What a machine that runs the demo shows. -/
theorem Runs.lit (h : Runs m) {x y : Nat} (hx : x < 64) (hy : y < 32) :
    m.display.lit x y =
      decide ((0x20C ≤ m.pc.toNat ∧ m.pc.toNat ≤ 0x21A) ∧ GlyphLit (m.reg 0) x y) := by
  obtain ⟨k, inside, here, before⟩ := h.leads
  have pc : m.pc.toNat = 0x200 + 2 * k := by rw [here, toNat_place inside]
  by_cases shown : 6 ≤ k ∧ k ≤ 13
  · have stretch : 0x20C ≤ m.pc.toNat ∧ m.pc.toNat ≤ 0x21A := by omega
    have small : m.reg 0 ≤ 15 := before.digit (by omega) (by omega)
    rw [before.display, if_pos shown, lit_picture small hx hy]
    simp only [stretch, true_and]
  · have elsewhere : ¬ (0x20C ≤ m.pc.toNat ∧ m.pc.toNat ≤ 0x21A) := by omega
    rw [before.display, if_neg shown, Display.lit, Display.isLit_blank]
    simp only [elsewhere, false_and, decide_false]

end Demo

/-- The demo runs for ever and draws cleanly.  Load it into any machine, and then take steps, run
frames of any length, let the timers go down, press keys, change the dialect and the length of the
timeline in any order.  No fault is ever reported, and the machine always runs.  The call stack is
empty, and memory is as it was after the load; the program counter is at one of the instructions of
the demo.  From the address `0x20C` to the address `0x21A` the display shows the glyph of the digit
in `V0`, eight pixels wide and five high, from column 28 and row 13 on, and nothing else; at all
other addresses it is blank.  The digit is one, except at the two addresses where it has just been
counted up. -/
theorem demo_runs_forever (m : Machine) {history : List Operation}
    (ordinary : ∀ o ∈ history, o.leavesMemory = true) :
    let loaded := (m.load Demo.program).machine
    let now := loaded.after history
    ((m.load Demo.program).fault? = none ∧ ∀ o ∈ loaded.outcomes history, o.fault? = none) ∧
    now.activity = .running ∧ now.calls.depth = 0 ∧ now.memory = loaded.memory ∧
    (0x200 ≤ now.pc.toNat ∧ now.pc.toNat ≤ 0x222 ∧ now.pc.toNat % 2 = 0) ∧
    (∀ x y : Nat, x < 64 → y < 32 → now.display.lit x y =
      decide ((0x20C ≤ now.pc.toNat ∧ now.pc.toNat ≤ 0x21A) ∧ Demo.GlyphLit (now.reg 0) x y)) ∧
    (now.pc.toNat ≠ 0x21E → now.pc.toNat ≠ 0x220 → (now.reg 0).toNat ≤ 15) := by
  intro loaded now
  have start : Demo.Runs loaded := Demo.runs_load m
  obtain ⟨calm, last⟩ :=
    Machine.faultless_history Demo.keptBetweenSteps_runs Demo.Runs.step ordinary start
  have taken : (m.load Demo.program).fault? = none := by rw [m.load_of_fits Demo.program_fits]
  obtain ⟨k, inside, here, before⟩ := last.leads
  have pc : now.pc.toNat = 0x200 + 2 * k := by rw [here, Demo.toNat_place inside]
  refine ⟨⟨taken, calm⟩, last.running, ?_, ?_, ?_, ?_, ?_⟩
  · exact congrArg CallStack.depth last.calls
  · exact last.memory.trans start.memory.symm
  · exact ⟨by omega, by omega, by omega⟩
  · exact fun x y hx hy => last.lit hx hy
  · intro notCounted notMasked
    exact UInt8.le_iff_toNat_le.mp (before.digit (by omega) (by omega))

/-- Once thirty frames have passed in the loop, the demo goes on to the digit one, whose glyph has a
pixel at its top in the third column and none in the first, even while other keys and another
dialect are tried. -/
theorem demo_runs_forever_second_digit :
    let history : List Operation := .frame 10 :: .setTraceLimit 0 :: .key 3 true ::
      List.replicate 29 .countDown ++ [.setDialect ⟨true, true, true⟩, .frame 9]
    let loaded := ((Machine.powerOn {} 5 default).load Demo.program).machine
    let now := loaded.after history
    (∀ o ∈ history, o.leavesMemory = true) ∧
    (∀ o ∈ loaded.outcomes history, o.fault? = none) ∧
    (now.pc.toNat = 0x20C ∧ now.reg 0 = 1) ∧
    now.display.lit (30 : Nat) (13 : Nat) = true ∧
    now.display.lit (28 : Nat) (13 : Nat) = false := by
  intro history
  have ordinary : ∀ o ∈ history, o.leavesMemory = true := by decide
  have reached :
      let now := ((Machine.powerOn {} 5 default).load Demo.program).machine.after history
      now.pc.toNat = 0x20C ∧ now.reg 0 = 1 := by
    decide +kernel
  obtain ⟨here, digit⟩ := reached
  obtain ⟨⟨-, calm⟩, -, -, -, -, shown, -⟩ :=
    demo_runs_forever (Machine.powerOn {} 5 default) ordinary
  refine ⟨ordinary, calm, ⟨here, digit⟩, ?_, ?_⟩
  · rw [shown 30 13 (by decide) (by decide), here, digit]
    decide
  · rw [shown 28 13 (by decide) (by decide), here, digit]
    decide

end Chip8
