import Chip8.Rom.Delivery

namespace Chip8

/-!
# Reading in chunks

A file is read into a chunk of fixed size, again and again, and what has come goes to the end of a
buffer.  The end of the file shows by a read that brings less than a chunk, perhaps nothing; and a
read that fails brings nothing at all, even if some bytes came before the failure.

* `Delivery.take?` — the next bytes that a file delivers.
* `Reader`, `Reader.read` — an open file while it is being read, and one read of it.
* `Reader.drain` — reads until one of them falls short.
-/

/-- The next bytes, as many as are asked for or all that are left, and what comes after them;
nothing if reading fails before there are enough. -/
def Delivery.take? (count : Nat) : Delivery → Option (List UInt8 × Delivery)
  | ended => some ([], ended)
  | failed => if count = 0 then some ([], failed) else none
  | piece bytes rest =>
    if count ≤ bytes.length then some (bytes.take count, piece (bytes.drop count) rest)
    else (rest.take? (count - bytes.length)).map fun (more, rest) => (bytes ++ more, rest)

/-- The bytes of a chunk. -/
def chunkSize : Nat := 4096

/-- An open file while it is being read. -/
structure Reader where
  /-- What is still to come. -/
  rest : Delivery
  /-- The chunk; past the bytes of the last read, it holds what was there before. -/
  chunk : List UInt8 := List.replicate chunkSize 0
  /-- How many bytes the last read has brought. -/
  count : Nat := 0
  /-- Whether a read has met the end of the file. -/
  ended : Bool := false
  /-- Whether a read has brought less than it was asked for. -/
  short : Bool := false
  /-- Whether reading has failed. -/
  broken : Bool := false

namespace Reader

/-- Whether nothing keeps the file from being read on. -/
def good (r : Reader) : Bool := !r.ended && !r.short && !r.broken

/-- Whether every read so far has brought a whole chunk. -/
def full (r : Reader) : Bool := !r.short && !r.broken

/-- Read the next bytes into the chunk.  Where nothing can be read on, nothing comes. -/
def read (r : Reader) : Reader :=
  if r.good then
    match r.rest.take? chunkSize with
    | some (bytes, rest) =>
      let less := decide (bytes.length < chunkSize)
      { rest := rest
        chunk := bytes ++ r.chunk.drop bytes.length
        count := bytes.length
        ended := less
        short := less }
    | none => { r with rest := .failed, count := 0, broken := true }
  else { r with count := 0, short := true }

end Reader

/-! ### Taking bytes -/

namespace Delivery

/-- The bytes that are taken come before the rest; there are enough of them unless the file has
ended. -/
theorem take?_eq_some {count : Nat} {d rest : Delivery} {bytes : List UInt8}
    (h : d.take? count = some (bytes, rest)) :
    d.received = bytes ++ rest.received ∧ d.intact = rest.intact ∧
      (bytes.length = count ∨ bytes.length < count ∧ rest = ended) := by
  induction d generalizing count bytes with
  | ended =>
    cases h
    exact ⟨rfl, rfl, by simp [Nat.eq_zero_or_pos, eq_comm]⟩
  | failed =>
    rw [take?, Option.ite_none_right_eq_some] at h
    obtain ⟨rfl, same⟩ := h
    cases same
    exact ⟨rfl, rfl, .inl rfl⟩
  | piece first others ih =>
    rw [take?] at h
    split at h
    · next enough =>
      cases h
      refine ⟨?_, rfl, .inl (List.length_take_of_le enough)⟩
      rw [received, received, ← List.append_assoc, List.take_append_drop]
    · next more =>
      obtain ⟨⟨later, last⟩, taken, same⟩ := Option.map_eq_some_iff.mp h
      cases same
      obtain ⟨content, whole, length⟩ := ih taken
      rw [received, intact, content, whole, List.append_assoc, List.length_append]
      refine ⟨rfl, rfl, ?_⟩
      rcases length with enough | ⟨less, ended⟩
      · left
        omega
      · right
        exact ⟨by omega, ended⟩

/-- Where bytes cannot be taken, the file fails before there are enough. -/
theorem take?_eq_none {count : Nat} {d : Delivery} (h : d.take? count = none) :
    d.intact = false := by
  induction d generalizing count with
  | ended => cases h
  | failed => rfl
  | piece first others ih =>
    rw [take?] at h
    split at h
    · cases h
    · exact ih (Option.map_eq_none_iff.mp h)

end Delivery

namespace Reader

/-! ### One read -/

/-- What a read comes to: the bytes that it has brought are at the head of the chunk, whatever the
chunk held before. -/
inductive Reads (r next : Reader) : Prop where
  /-- It has brought a whole chunk, and the file can be read on. -/
  | whole (full : next.full = true) (onward : next.good = true) (count : next.count = chunkSize)
      (length : (next.chunk.take next.count).length = chunkSize)
      (content : r.rest.received = next.chunk.take next.count ++ next.rest.received)
      (intact : r.rest.intact = next.rest.intact)
  /-- It has brought all that was left, which is less than a chunk. -/
  | last (less : next.full = false) (unbroken : next.broken = false)
      (content : r.rest.received = next.chunk.take next.count) (intact : r.rest.intact = true)
  /-- It has failed. -/
  | fails (less : next.full = false) (broken : next.broken = true) (nothing : next.count = 0)
      (torn : r.rest.intact = false)

theorem reads_read {r : Reader} (good : r.good = true) : Reads r r.read := by
  rw [read, if_pos good]
  split
  · next bytes rest taken =>
    obtain ⟨content, intact, enough | ⟨less, ended⟩⟩ := Delivery.take?_eq_some taken
    · have notLess : decide (bytes.length < chunkSize) = false := by simp [enough]
      refine .whole ?_ ?_ enough ?_ ?_ intact
      · simp [full, notLess]
      · simp [Reader.good, notLess]
      · rw [List.take_left, enough]
      · rw [List.take_left, content]
    · subst ended
      refine .last ?_ rfl ?_ intact
      · simp [full, less]
      · rw [List.take_left, content, Delivery.received, List.append_nil]
  · next taken => exact .fails (by simp [full]) rfl rfl (Delivery.take?_eq_none taken)

/-- Only a file that can be read on brings a whole chunk. -/
theorem good_of_full_read {r : Reader} (full : r.read.full = true) : r.good = true := by
  rw [← Bool.not_eq_false]
  intro bad
  simp [read, bad, Reader.full] at full

/-- A read that brings a whole chunk leaves less to come. -/
theorem length_rest_read_lt {r : Reader} (full : r.read.full = true) :
    r.read.rest.received.length < r.rest.received.length := by
  cases reads_read (good_of_full_read full) with
  | whole _ _ _ length content _ =>
    rw [content, List.length_append, length]
    exact Nat.lt_add_of_pos_left (by decide)
  | last less => simp [less] at full
  | fails less => simp [less] at full

/-! ### All reads -/

/-- Read until a read falls short, and put what comes at the end of a buffer. -/
def drain (r : Reader) (buffer : List UInt8) : List UInt8 × Reader :=
  let next := r.read
  if next.full || 0 < next.count then
    let buffer := buffer ++ next.chunk.take next.count
    if next.full then next.drain buffer else (buffer, next)
  else (buffer, next)
termination_by r.rest.received.length
decreasing_by
  exact length_rest_read_lt ‹_›

end Reader

end Chip8
