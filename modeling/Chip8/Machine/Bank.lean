import Chip8.Word

namespace Chip8

/-!
# Banks of bytes

A bank is a fixed number of byte cells arranged in a ring.  The memory is a bank of 4096
cells and the registers are a bank of sixteen.

* `Bank.read`, `Bank.write` — one cell; `Bank.read_write` says what a write changes.
* `Bank.readFrom`, `Bank.writeFrom` — consecutive cells, going round at the end;
  `Bank.read_writeFrom_of_lt` and `Bank.read_writeFrom_of_ne` say what is written where, and
  `Bank.toList_writeFrom` says it of all bytes at once.
* `Bank.readFrom_congr`, `Bank.writeFrom_congr` — whole rounds make no difference to where a run
  begins.
* `Bank.ext_read` — a bank is what its cells read.
-/

/-- A ring of `n` byte cells. -/
@[ext] structure Bank (n : Nat) where
  /-- The cells in order. -/
  cells : Vector UInt8 n
  deriving DecidableEq

namespace Bank

variable {n : Nat}

/-- The bank whose cells are all zero. -/
def blank : Bank n := ⟨Vector.replicate n 0⟩

instance : Inhabited (Bank n) := ⟨blank⟩

/-- The byte in a cell. -/
def read (b : Bank n) (i : Fin n) : UInt8 := b.cells[i]

/-- The bank with another byte in one cell. -/
def write (b : Bank n) (i : Fin n) (value : UInt8) : Bank n := ⟨b.cells.set i value⟩

/-- All bytes in order. -/
def toList (b : Bank n) : List UInt8 := b.cells.toList

@[simp] theorem read_blank (i : Fin n) : (blank : Bank n).read i = 0 := by
  simp [blank, read]

/-- A write changes its own cell and no other. -/
theorem read_write (b : Bank n) (i j : Fin n) (value : UInt8) :
    (b.write i value).read j = if i = j then value else b.read j := by
  simp [read, write, Vector.getElem_set, Fin.ext_iff]

@[simp] theorem read_write_self (b : Bank n) (i : Fin n) (value : UInt8) :
    (b.write i value).read i = value := by
  simp [read_write]

theorem read_write_of_ne (b : Bank n) {i j : Fin n} (h : i ≠ j) (value : UInt8) :
    (b.write i value).read j = b.read j := by
  simp [read_write, h]

/-- A cell keeps its byte in a write, or it is the one that is written. -/
theorem read_write_or (b : Bank n) (i j : Fin n) (value : UInt8) :
    (b.write i value).read j = b.read j ∨ j = i := by
  by_cases here : j = i
  · exact .inr here
  · exact .inl (b.read_write_of_ne (Ne.symm here) value)

@[simp] theorem length_toList (b : Bank n) : b.toList.length = n := by
  simp [toList]

@[simp] theorem toList_blank : (blank : Bank n).toList = List.replicate n 0 := by
  simp [toList, blank]

@[simp] theorem toList_write (b : Bank n) (i : Fin n) (value : UInt8) :
    (b.write i value).toList = b.toList.set i value :=
  Vector.toList_set i.isLt

/-- Banks that read alike are equal. -/
theorem ext_read {a b : Bank n} (h : ∀ i, a.read i = b.read i) : a = b :=
  Bank.ext (Vector.ext fun i hi => h ⟨i, hi⟩)

/-! ### Runs of cells -/

variable [Nonzero n]

/-- The bytes of `count` cells from a number on. -/
def readFrom (b : Bank n) (start count : Nat) : List UInt8 :=
  (List.range count).map fun k => b.read (Fin.ofNat n (start + k))

/-- The bank with bytes put into the cells from a number on, one after another. -/
def writeFrom (b : Bank n) (start : Nat) : List UInt8 → Bank n
  | [] => b
  | value :: rest => (b.write (Fin.ofNat n start) value).writeFrom (start + 1) rest

@[simp] theorem length_readFrom (b : Bank n) (start count : Nat) :
    (b.readFrom start count).length = count := by
  simp [readFrom]

/-- Each byte of a run comes from its own cell. -/
theorem getElem?_readFrom (b : Bank n) (start : Nat) {count k : Nat} (h : k < count) :
    (b.readFrom start count)[k]? = some (b.read (Fin.ofNat n (start + k))) := by
  rw [readFrom, List.getElem?_map, List.getElem?_range h, Option.map_some]

@[simp] theorem writeFrom_nil (b : Bank n) (start : Nat) : b.writeFrom start [] = b := rfl

@[simp] theorem writeFrom_cons (b : Bank n) (start : Nat) (value : UInt8) (rest : List UInt8) :
    b.writeFrom start (value :: rest) =
      (b.write (Fin.ofNat n start) value).writeFrom (start + 1) rest := rfl

/-- Cells that a run does not reach stay as they are. -/
theorem read_writeFrom_of_ne (b : Bank n) (start : Nat) (values : List UInt8) (i : Fin n)
    (h : ∀ k < values.length, Fin.ofNat n (start + k) ≠ i) :
    (b.writeFrom start values).read i = b.read i := by
  induction values generalizing b start with
  | nil => rfl
  | cons value rest ih =>
    have first : Fin.ofNat n start ≠ i := h 0 (by simp)
    rw [writeFrom_cons, ih, read_write_of_ne b first]
    intro k hk
    have later := h (k + 1) (by simpa using hk)
    rwa [Nat.add_assoc, Nat.add_comm 1 k]

/-- A cell keeps its byte in a run of writes, or it is one of those that are written. -/
theorem read_writeFrom_or (b : Bank n) (start : Nat) (values : List UInt8) (i : Fin n) :
    (b.writeFrom start values).read i = b.read i ∨
      ∃ k < values.length, i = Fin.ofNat n (start + k) := by
  by_cases reached : ∃ k < values.length, i = Fin.ofNat n (start + k)
  · exact .inr reached
  · exact .inl (b.read_writeFrom_of_ne start values i
      fun k inside here => reached ⟨k, inside, here.symm⟩)

/-- A run that is no longer than the bank can be read back byte by byte. -/
theorem read_writeFrom_of_lt (b : Bank n) (start : Nat) (values : List UInt8)
    (fits : values.length ≤ n) (k : Nat) (h : k < values.length) :
    (b.writeFrom start values).read (Fin.ofNat n (start + k)) = values[k] := by
  induction values generalizing b start k with
  | nil => simp at h
  | cons value rest ih =>
    simp only [List.length_cons] at fits h
    rw [writeFrom_cons]
    cases k with
    | zero =>
      -- the later bytes stay clear of the first cell, as they do not come round to it
      rw [read_writeFrom_of_ne]
      · simp
      · intro j hj same
        have same : (start + 1 + j) % n = (start + 0) % n := congrArg Fin.val same
        have round := Nat.sub_mod_eq_zero_of_mod_eq same
        rw [show start + 1 + j - (start + 0) = j + 1 by omega, Nat.mod_eq_of_lt (by omega)]
          at round
        omega
    | succ k =>
      have step := ih (b.write (Fin.ofNat n start) value) (start + 1) (by omega) k (by omega)
      rw [show start + (k + 1) = start + 1 + k by omega]
      simpa using step

/-- Where a run begins matters up to whole rounds of the bank. -/
theorem readFrom_congr (b : Bank n) {start start' : Nat} (h : start % n = start' % n)
    (count : Nat) : b.readFrom start count = b.readFrom start' count := by
  have cell (k : Nat) : Fin.ofNat n (start + k) = Fin.ofNat n (start' + k) := by
    apply Fin.ext
    rw [Fin.val_ofNat, Fin.val_ofNat, Nat.add_mod, h, ← Nat.add_mod]
  simp only [readFrom, cell]

theorem writeFrom_congr (b : Bank n) {start start' : Nat} (h : start % n = start' % n)
    (values : List UInt8) : b.writeFrom start values = b.writeFrom start' values := by
  induction values generalizing b start start' with
  | nil => rfl
  | cons value rest ih =>
    have cell : Fin.ofNat n start = Fin.ofNat n start' := Fin.ext h
    have next : (start + 1) % n = (start' + 1) % n := by
      rw [Nat.add_mod, h, ← Nat.add_mod]
    rw [writeFrom_cons, writeFrom_cons, cell]
    exact ih _ next

/-- A run that does not go round the end replaces as many bytes as it has. -/
theorem toList_writeFrom (b : Bank n) (start : Nat) (values : List UInt8)
    (fits : start + values.length ≤ n) :
    (b.writeFrom start values).toList =
      b.toList.take start ++ values ++ b.toList.drop (start + values.length) := by
  induction values generalizing b start with
  | nil => simp
  | cons value rest ih =>
    simp only [List.length_cons] at fits ⊢
    have cell : (Fin.ofNat n start).val = start := Nat.mod_eq_of_lt (by omega)
    have inside : start < (b.toList.set start value).length := by
      simp only [List.length_set, length_toList]
      omega
    rw [writeFrom_cons, ih _ (start + 1) (by omega), toList_write, cell]
    -- the first byte is the last one that the rest of the run leaves alone before it
    rw [← List.take_append_getElem inside, List.getElem_set_self,
      List.take_set_of_le (Nat.le_refl start), List.drop_set_of_lt (by omega)]
    simp [Nat.add_comm 1, Nat.add_assoc]

end Bank

/-- The 4 KiB memory. -/
abbrev Memory := Bank 4096

/-- The registers `V0` to `VF`. -/
abbrev Registers := Bank 16

/-- The word whose high byte lies at an address and whose low byte lies after it. -/
def Bank.wordAt (m : Memory) (place : UInt16) : UInt16 :=
  wordOfBytes (m.read (Address.wrap place.toNat)) (m.read (Address.wrap (place.toNat + 1)))

end Chip8
