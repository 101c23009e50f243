import Chip8.Proofs.Dispatch
import Mathlib.Data.Finset.Image

namespace Chip8

/-!
# Registers saved in memory

One instruction writes registers to the cells that the index register points at, and another one
reads them back.  The cells go round at the end of memory, but there are never so many of them that
two would be the same, so each register has one of its own.

* `Address.window` — some cells in a row; `Address.window_add` and `Address.disjoint_window` say
  that windows which follow each other make up a longer one, and have no cell in common.
* `Machine.ComesTo`, `Machine.cell`, `Machine.window` — the word that is next, and the cells that
  registers are saved in.
* `Machine.Saved`, `Machine.Restored` — what the two instructions leave behind.
* `saved_registers_restored` — what has been saved is restored, what has been restored is saved
  again without a change, and registers that are saved one after the other are kept apart.
-/

/-! ### Cells in a row -/

namespace Address

/-- Some cells from a number on, going round at the end of memory. -/
def window (start count : Nat) : Finset Address :=
  (Finset.range count).image fun k => wrap (start + k)

variable {start count : Nat} {a : Address}

theorem mem_window : a ∈ window start count ↔ ∃ k < count, wrap (start + k) = a := by
  simp [window]

/-- Numbers that are closer than the size of memory name different cells. -/
theorem wrap_add_inj {j k : Nat} (first : j < 4096) (second : k < 4096) :
    wrap (start + j) = wrap (start + k) ↔ j = k := by
  rw [Fin.ext_iff, val_wrap, val_wrap]
  omega

/-- Where a window begins matters up to whole rounds of the memory. -/
theorem window_congr {start' : Nat} (h : start % 4096 = start' % 4096) (count : Nat) :
    window start count = window start' count := by
  have cell (k : Nat) : wrap (start + k) = wrap (start' + k) := by
    apply Fin.ext
    rw [val_wrap, val_wrap, Nat.add_mod, h, ← Nat.add_mod]
  simp only [window, cell]

/-- A window is followed by the one that begins where it ends. -/
theorem window_add (start first second : Nat) :
    window start (first + second) = window start first ∪ window (start + first) second := by
  ext a
  rw [Finset.mem_union, mem_window, mem_window, mem_window]
  constructor
  · rintro ⟨k, inside, rfl⟩
    by_cases early : k < first
    · exact .inl ⟨k, early, rfl⟩
    · refine .inr ⟨k - first, by omega, ?_⟩
      rw [show start + first + (k - first) = start + k by omega]
  · rintro (⟨k, inside, rfl⟩ | ⟨k, inside, rfl⟩)
    · exact ⟨k, by omega, rfl⟩
    · exact ⟨first + k, by omega, by rw [Nat.add_assoc]⟩

/-- The two have no cell in common, unless they come round to each other. -/
theorem disjoint_window {first second : Nat} (fits : first + second ≤ 4096) (start : Nat) :
    Disjoint (window start first) (window (start + first) second) := by
  rw [Finset.disjoint_left]
  intro a early late
  obtain ⟨j, inside, rfl⟩ := mem_window.mp early
  obtain ⟨k, beyond, same⟩ := mem_window.mp late
  rw [Nat.add_assoc, wrap_add_inj (by omega) (by omega)] at same
  omega

end Address

/-! ### Saving and restoring -/

namespace Machine

/-- The machine runs, and the word at its program counter is a number. -/
def ComesTo (m : Machine) (word : Nat) : Prop :=
  m.activity = .running ∧ (m.fetch m.pc).toNat = word

instance (m : Machine) (word : Nat) : Decidable (m.ComesTo word) :=
  inferInstanceAs (Decidable (_ ∧ _))

/-- The cell that a register is saved in. -/
def cell (m : Machine) (r : Register) : Address := .wrap (m.index.toNat + r.val)

/-- The cells that the registers up to one of them are saved in. -/
def window (m : Machine) (x : Register) : Finset Address :=
  Address.window m.index.toNat (x.val + 1)

/-- Where the index register is once the registers up to one of them have been moved. -/
def indexPast (m : Machine) (x : Register) : Nat :=
  if m.dialect.has .transfer then (m.index.toNat + x.val + 1) % 0x10000 else m.index.toNat

/-- A step writes the registers up to one of them to memory, and moves the index register past them
if the dialect says so. -/
structure Saved (m : Machine) (x : Register) : Prop where
  /-- The step reports no fault. -/
  calm : m.step.fault? = none
  /-- Each register is in its cell. -/
  bytes : ∀ r ≤ x, m.step.machine.memory.read (m.cell r) = m.reg r
  /-- The other cells keep their bytes. -/
  others : ∀ a ∉ m.window x, m.step.machine.memory.read a = m.memory.read a
  /-- So do the registers. -/
  registers : m.step.machine.registers = m.registers
  /-- The index register is where the dialect wants it. -/
  index : m.step.machine.index.toNat = m.indexPast x

/-- A step reads the registers up to one of them from memory, and moves the index register past them
if the dialect says so. -/
structure Restored (m : Machine) (x : Register) : Prop where
  /-- The step reports no fault. -/
  calm : m.step.fault? = none
  /-- Each register has the byte of its cell. -/
  bytes : ∀ r ≤ x, m.step.machine.reg r = m.memory.read (m.cell r)
  /-- The other registers keep their bytes. -/
  others : ∀ r, x < r → m.step.machine.reg r = m.reg r
  /-- So does memory. -/
  memory : m.step.machine.memory = m.memory
  /-- The index register is where the dialect wants it. -/
  index : m.step.machine.index.toNat = m.indexPast x

variable {m m' : Machine} {x y r : Register}

/-- The cells of the registers are the window. -/
theorem mem_window {a : Address} : a ∈ m.window x ↔ ∃ r ≤ x, m.cell r = a := by
  rw [window, Address.mem_window]
  constructor
  · rintro ⟨k, inside, rfl⟩
    exact ⟨⟨k, by omega⟩, Nat.lt_succ_iff.mp inside, rfl⟩
  · rintro ⟨r, upTo, rfl⟩
    exact ⟨r.val, Nat.lt_succ_iff.mpr upTo, rfl⟩

/-- The bytes to be saved are those of the registers. -/
theorem getElem?_registersUpTo (upTo : r ≤ x) :
    (m.registersUpTo x)[r.val]? = some (m.reg r) := by
  have same : Fin.ofNat 16 (0 + r.val) = r := by simp
  rw [registersUpTo, Bank.getElem?_readFrom _ _ (Nat.lt_succ_iff.mpr upTo), same]
  rfl

/-- The bytes to be restored are those of the cells. -/
theorem getElem?_bytesUpTo (upTo : r ≤ x) :
    (m.bytesUpTo x)[r.val]? = some (m.memory.read (m.cell r)) :=
  Bank.getElem?_readFrom _ _ (Nat.lt_succ_iff.mpr upTo)

theorem toNat_indexAfterTransfer (m : Machine) (x : Register) :
    (m.indexAfterTransfer x).toNat = m.indexPast x := by
  have bound := x.isLt
  unfold indexAfterTransfer indexPast
  rw [show m.dialect.has .transfer = m.dialect.transferMovesIndex from rfl]
  split
  · rw [UInt16.toNat_add, UInt16.toNat_ofNat']
    omega
  · rfl

/-- A word that begins with `F` names a register by its second digit. -/
theorem fetch_of_comesTo (low : UInt8) (h : m.ComesTo (0xF000 + low.toNat + x.val * 0x100)) :
    m.fetch m.pc = wordOfByte 0xF x low := by
  apply UInt16.toNat_inj.mp
  rw [h.2, toNat_wordOfByte (by decide)]
  omega

/-- A word `Fx55` saves registers. -/
theorem saved_of_comesTo (h : m.ComesTo (0xF055 + x.val * 0x100)) : m.Saved x := by
  have decoded : decode (m.fetch m.pc) = .store x := by
    have word := congrArg UInt16.toNat (fetch_of_comesTo 0x55 h)
    exact decode_of_toNat_eq nofun nofun word
  obtain ⟨timeline, after⟩ := exists_timeline_step h.1 decoded rfl
  have length : (m.registersUpTo x).length = x.val + 1 := Bank.length_readFrom ..
  have fits : (m.registersUpTo x).length ≤ 4096 := by
    have := x.isLt
    omega
  constructor
  case calm => rw [after]
  case bytes =>
    intro r upTo
    obtain ⟨inside, byte⟩ := List.getElem?_eq_some_iff.mp (getElem?_registersUpTo upTo)
    rw [after, ← byte]
    exact m.memory.read_writeFrom_of_lt m.index.toNat _ fits r.val inside
  case others =>
    intro a outside
    rw [after]
    refine m.memory.read_writeFrom_of_ne m.index.toNat _ a ?_
    intro k inside here
    rw [length] at inside
    apply outside
    exact Address.mem_window.mpr ⟨k, inside, here⟩
  case registers =>
    rw [after]
    rfl
  case index =>
    rw [after]
    exact m.toNat_indexAfterTransfer x

/-- A word `Fx65` restores them. -/
theorem restored_of_comesTo (h : m.ComesTo (0xF065 + x.val * 0x100)) : m.Restored x := by
  have decoded : decode (m.fetch m.pc) = .load x := by
    have word := congrArg UInt16.toNat (fetch_of_comesTo 0x65 h)
    exact decode_of_toNat_eq nofun nofun word
  obtain ⟨timeline, after⟩ := exists_timeline_step h.1 decoded rfl
  have length : (m.bytesUpTo x).length = x.val + 1 := Bank.length_readFrom ..
  have fits : (m.bytesUpTo x).length ≤ 16 := by
    have := x.isLt
    omega
  constructor
  case calm => rw [after]
  case bytes =>
    intro r upTo
    obtain ⟨inside, byte⟩ := List.getElem?_eq_some_iff.mp (getElem?_bytesUpTo upTo)
    have same : Fin.ofNat 16 (0 + r.val) = r := by simp
    have written := m.registers.read_writeFrom_of_lt 0 _ fits r.val inside
    rw [same, byte] at written
    rw [after]
    exact written
  case others =>
    intro r beyond
    rw [after]
    refine m.registers.read_writeFrom_of_ne 0 _ r ?_
    rintro k inside rfl
    have last : x.val < (0 + k) % 16 := beyond
    omega
  case memory =>
    rw [after]
    rfl
  case index =>
    rw [after]
    exact m.toNat_indexAfterTransfer x

/-! ### One after the other -/

/-- The cell of a register depends on the index register alone. -/
theorem cell_congr (place : m'.index = m.index) (r : Register) : m'.cell r = m.cell r := by
  rw [cell, place]
  rfl

/-- What has been saved is restored. -/
theorem reg_of_restored (saved : m.Saved x) (restored : m'.Restored x)
    (place : m'.index = m.index)
    (kept : ∀ r ≤ x, m'.memory.read (m.cell r) = m.step.machine.memory.read (m.cell r))
    (upTo : r ≤ x) : m'.step.machine.reg r = m.reg r :=
  calc m'.step.machine.reg r
      = m'.memory.read (m'.cell r) := restored.bytes r upTo
    _ = m.step.machine.memory.read (m.cell r) := by rw [cell_congr place, kept r upTo]
    _ = m.reg r := saved.bytes r upTo

/-- What has been restored is saved again without a change. -/
theorem memory_of_saved (restored : m.Restored x) (saved : m'.Saved x)
    (place : m'.index = m.index) (held : ∀ r ≤ x, m'.reg r = m.step.machine.reg r)
    (kept : ∀ r ≤ x, m'.memory.read (m.cell r) = m.memory.read (m.cell r)) :
    m'.step.machine.memory = m'.memory := by
  apply Bank.ext_read
  intro a
  by_cases inside : a ∈ m'.window x
  · obtain ⟨r, upTo, rfl⟩ := mem_window.mp inside
    calc m'.step.machine.memory.read (m'.cell r)
        = m'.reg r := saved.bytes r upTo
      _ = m.memory.read (m.cell r) := by rw [held r upTo, restored.bytes r upTo]
      _ = m'.memory.read (m'.cell r) := by rw [cell_congr place, kept r upTo]
  · exact saved.others a inside

/-- Where the index register moves on, the next window begins at the end of the last one. -/
theorem window_of_moved (moves : m.dialect.has .transfer = true)
    (place : m'.index.toNat = m.indexPast x) (y : Register) :
    m'.window y = Address.window (m.index.toNat + (x.val + 1)) (y.val + 1) := by
  rw [indexPast, if_pos moves] at place
  apply Address.window_congr
  omega

end Machine

/-- Saving the registers up to one of them puts each of them into its cell, counted from where the
index register points and going round at the end of memory; restoring them reads them from there.
Neither changes anything else in memory and in the registers, and both leave the index register
where it is, or move it past the registers, as the dialect wants it.  So if the index register is
the same and the cells have not been written over, what has been saved is restored, however much
later.  If what has been restored is saved to the same cells, memory does not change.  And where
the index register moves, registers that are saved next get the cells that follow, none of which
has been used. -/
theorem saved_registers_restored :
    (∀ (m : Machine) (x : Register), m.ComesTo (0xF055 + x.val * 0x100) → m.Saved x) ∧
    (∀ (m : Machine) (x : Register), m.ComesTo (0xF065 + x.val * 0x100) → m.Restored x) ∧
    (∀ (m m' : Machine) (x : Register), m.ComesTo (0xF055 + x.val * 0x100) →
      m'.ComesTo (0xF065 + x.val * 0x100) → m'.index = m.index →
      (∀ r ≤ x, m'.memory.read (m.cell r) = m.step.machine.memory.read (m.cell r)) →
        ∀ r ≤ x, m'.step.machine.reg r = m.reg r) ∧
    (∀ (m m' : Machine) (x : Register), m.ComesTo (0xF065 + x.val * 0x100) →
      m'.ComesTo (0xF055 + x.val * 0x100) → m'.index = m.index →
      (∀ r ≤ x, m'.reg r = m.step.machine.reg r) →
      (∀ r ≤ x, m'.memory.read (m.cell r) = m.memory.read (m.cell r)) →
        m'.step.machine.memory = m'.memory) ∧
    ∀ (m m' : Machine) (x y : Register), m.ComesTo (0xF055 + x.val * 0x100) →
      m'.ComesTo (0xF055 + y.val * 0x100) → m.dialect.has .transfer = true →
      m'.index = m.step.machine.index →
        Disjoint (m.window x) (m'.window y) ∧
        m.window x ∪ m'.window y = Address.window m.index.toNat (x.val + 1 + (y.val + 1)) ∧
        ∀ r ≤ x, m'.step.machine.memory.read (m.cell r) = m'.memory.read (m.cell r) := by
  refine ⟨fun _ _ => Machine.saved_of_comesTo, fun _ _ => Machine.restored_of_comesTo, ?_, ?_, ?_⟩
  · intro m m' x saves restores place kept r
    exact Machine.reg_of_restored (Machine.saved_of_comesTo saves)
      (Machine.restored_of_comesTo restores) place kept
  · intro m m' x restores saves place held kept
    exact Machine.memory_of_saved (Machine.restored_of_comesTo restores)
      (Machine.saved_of_comesTo saves) place held kept
  · intro m m' x y first second moves place
    have past : m'.index.toNat = m.indexPast x := by
      rw [place, (Machine.saved_of_comesTo first).index]
    have next := Machine.window_of_moved moves past y
    have fits : x.val + 1 + (y.val + 1) ≤ 4096 := by omega
    have apart : Disjoint (m.window x) (m'.window y) := by
      rw [next]
      exact Address.disjoint_window fits m.index.toNat
    refine ⟨apart, ?_, ?_⟩
    · rw [next]
      exact (Address.window_add m.index.toNat (x.val + 1) (y.val + 1)).symm
    · intro r upTo
      have used : m.cell r ∈ m.window x := Machine.mem_window.mpr ⟨r, upTo, rfl⟩
      exact (Machine.saved_of_comesTo second).others _ (Finset.disjoint_left.mp apart used)

/-- A program saves two registers in the last cell and the first one, and one of them in the cell
that follows.  Then it points the index register back, clears a register, restores both, and saves
them once more where they are. -/
theorem saved_registers_restored_last_cell :
    let program := [0x60, 0x11, 0x61, 0x22, 0xAF, 0xFF, 0xF1, 0x55, 0xF0, 0x55,
      0xAF, 0xFF, 0x61, 0x00, 0xF1, 0x65, 0xAF, 0xFF, 0xF1, 0x55]
    let m := (Machine.powerOn { transferMovesIndex := true } 0 default).after
      (.load program :: List.replicate 3 .step)
    let next := m.step.machine
    let back := next.after (List.replicate 3 .step)
    let again := back.after (List.replicate 2 .step)
    (m.index = 0xFFF ∧ next.index = 0x1001) ∧
      (m.Saved 1 ∧ Disjoint (m.window 1) (next.window 0) ∧
        m.window 1 ∪ next.window 0 = Address.window 0xFFF 3) ∧
      (back.reg 1 = 0 ∧ back.Restored 1 ∧ back.step.machine.reg 1 = m.reg 1) ∧
      again.step.machine.memory = again.memory := by
  intro program m next back again
  have facts : (m.ComesTo 0xF155 ∧ next.ComesTo 0xF055 ∧ back.ComesTo 0xF165 ∧
        again.ComesTo 0xF155) ∧
      (m.index = 0xFFF ∧ next.index = 0x1001 ∧ back.index = m.index ∧ again.index = back.index ∧
        m.dialect.has .transfer = true) ∧
      back.reg 1 = 0 ∧
      (∀ r ≤ 1, back.memory.read (m.cell r) = next.memory.read (m.cell r)) ∧
      (∀ r ≤ 1, again.reg r = back.step.machine.reg r) ∧
      ∀ r ≤ 1, again.memory.read (back.cell r) = back.memory.read (back.cell r) := by
    decide +kernel
  obtain ⟨words, places, cleared, kept, held, keptAgain⟩ := facts
  obtain ⟨saves, savesNext, restores, savesAgain⟩ := words
  obtain ⟨start, past, pointedBack, pointedAgain, moves⟩ := places
  obtain ⟨saving, restoring, restoredIs, savedIs, apart⟩ := saved_registers_restored
  obtain ⟨disjoint, together, -⟩ := apart m next 1 0 saves savesNext moves rfl
  rw [start] at together
  have restored := restoredIs m back 1 saves restores pointedBack kept
  have unchanged := savedIs back again 1 restores savesAgain pointedAgain held keptAgain
  exact ⟨⟨start, past⟩, ⟨saving m 1 saves, disjoint, together⟩,
    ⟨cleared, restoring back 1 restores, restored 1 (Fin.le_refl 1)⟩, unchanged⟩

end Chip8
