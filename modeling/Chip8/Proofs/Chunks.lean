import Chip8.Rom.Files

namespace Chip8

/-!
# Files are read in whole

A file is read in chunks, and the reads end in one of three ways: with some bytes that do not fill a
chunk, with no bytes at all where the last chunk has been the end of the file, or with a failure.
What comes is the same as if it had come at once.

* `Reader.drain_eq` — all reads of a file.
* `readBinary_of_missing`, `readBinary_of_intact`, `readBinary_of_torn` — a file that is read as it
  is.
* `binary_files_read_whole` — so its bytes come in whole, whatever their number.
-/

/-- Reading until a read falls short brings all bytes of a file, or shows that it fails. -/
theorem Reader.drain_eq {r : Reader} (good : r.good = true) (buffer : List UInt8) :
    (r.drain buffer).2.broken = !r.rest.intact ∧
      (r.rest.intact = true → (r.drain buffer).1 = buffer ++ r.rest.received) := by
  fun_induction drain r buffer with
  | case1 r buffer next came buffer' full ih =>
    cases reads_read good with
    | whole _ onward _ _ content intact =>
      -- the chunk goes to the buffer, and what is left is less
      rw [content, intact, ← List.append_assoc]
      exact ih onward
    | last less => exact absurd full (by simp [next, less])
    | fails less => exact absurd full (by simp [next, less])
  | case2 r buffer next came buffer' less =>
    cases reads_read good with
    | whole full => exact absurd full less
    | last _ unbroken content intact =>
      rw [content, intact]
      exact ⟨unbroken, fun _ => rfl⟩
    | fails _ broken _ torn =>
      rw [torn]
      exact ⟨broken, nofun⟩
  | case3 r buffer next nothing =>
    simp only [Bool.or_eq_true, decide_eq_true_eq, not_or, Nat.not_lt, Nat.le_zero] at nothing
    cases reads_read good with
    | whole full => exact absurd full nothing.1
    | last _ unbroken content intact =>
      -- the last chunk has been the end of the file
      rw [content, intact, nothing.2, List.take_zero, List.append_nil]
      exact ⟨unbroken, fun _ => rfl⟩
    | fails _ broken _ torn =>
      rw [torn]
      exact ⟨broken, nofun⟩

section Binary

variable {files : Files} {path : String} (buffer : List UInt8)

theorem readBinary_of_missing (missing : files.open? path = none) :
    readBinary files path buffer =
      { bytes := buffer, complaint? := some (.cannotOpen .binary path) } := by
  rw [readBinary, missing]

variable {delivery : Delivery} (opened : files.open? path = some delivery)

include opened

/-- A file that can be read to its end brings its bytes. -/
theorem readBinary_of_intact (intact : delivery.intact = true) :
    readBinary files path buffer = { bytes := delivery.received } := by
  obtain ⟨unbroken, bytes⟩ := Reader.drain_eq (r := { rest := delivery }) rfl []
  rw [readBinary, opened]
  simp only [unbroken, intact, bytes intact]
  rfl

/-- A file on which reading fails brings nothing. -/
theorem readBinary_of_torn (torn : delivery.intact = false) :
    readBinary files path buffer = { bytes := [], complaint? := some (.readError path) } := by
  obtain ⟨broken, -⟩ := Reader.drain_eq (r := { rest := delivery }) rfl []
  rw [readBinary, opened]
  simp only [broken, torn]
  rfl

end Binary

/-- A binary file is read exactly, whatever the buffer held before.  If it cannot be opened, that is
the answer, and the buffer stays.  If it can be read to its end, reading succeeds, and the buffer
holds the bytes of the file, all of them in order and no others; if reading fails on the way, as it
does for a directory, that is the answer, and the buffer is empty.  So every content comes in whole,
however many bytes it has and in whatever pieces the file delivers them. -/
theorem binary_files_read_whole (files : Files) (path : String) (buffer : List UInt8) :
    let reading := readBinary files path buffer
    (files.open? path = none → reading.ok = false ∧ reading.bytes = buffer) ∧
    (∀ delivery, files.open? path = some delivery →
      (delivery.intact = true → reading.ok = true ∧ reading.bytes = delivery.received) ∧
      (delivery.intact = false → reading.ok = false ∧ reading.bytes = [])) ∧
    ∀ (size : Nat) (content : List UInt8), files.open? path = some (.ofContent size content) →
      reading.ok = true ∧ reading.bytes = content := by
  intro reading
  refine ⟨?_, ?_, ?_⟩
  · intro missing
    have answer : reading = _ := readBinary_of_missing buffer missing
    rw [answer]
    exact ⟨rfl, rfl⟩
  · intro delivery opened
    refine ⟨?_, ?_⟩
    · intro intact
      have answer : reading = _ := readBinary_of_intact buffer opened intact
      rw [answer]
      exact ⟨rfl, rfl⟩
    · intro torn
      have answer : reading = _ := readBinary_of_torn buffer opened torn
      rw [answer]
      exact ⟨rfl, rfl⟩
  · intro size content opened
    have intact := Delivery.intact_ofContent size content
    have answer : reading = _ := readBinary_of_intact buffer opened intact
    rw [answer, Delivery.received_ofContent]
    exact ⟨rfl, rfl⟩

/-- Two whole chunks, delivered in pieces that are longer than a chunk; one byte more, delivered in
pieces of seven; a directory; and a name that stands for nothing. -/
theorem binary_files_read_whole_two_chunks :
    let files : Files := fun name =>
      if name = "chunks" then some (.ofContent 4999 (List.replicate 8192 0xE0))
      else if name = "more" then some (.ofContent 6 (List.replicate 8193 0xE0))
      else if name = "directory" then some .failed
      else none
    ((readBinary files "chunks" [1, 2]).ok = true ∧
      (readBinary files "chunks" [1, 2]).bytes = List.replicate 8192 0xE0) ∧
    ((readBinary files "more" [1, 2]).ok = true ∧
      (readBinary files "more" [1, 2]).bytes = List.replicate 8193 0xE0) ∧
    ((readBinary files "directory" [1, 2]).ok = false ∧
      (readBinary files "directory" [1, 2]).bytes = []) ∧
    ((readBinary files "missing" [1, 2]).ok = false ∧
      (readBinary files "missing" [1, 2]).bytes = [1, 2]) := by
  intro files
  refine ⟨?_, ?_, ?_, ?_⟩
  · exact (binary_files_read_whole files "chunks" [1, 2]).2.2 4999 _ rfl
  · exact (binary_files_read_whole files "more" [1, 2]).2.2 6 _ rfl
  · exact ((binary_files_read_whole files "directory" [1, 2]).2.1 .failed rfl).2 rfl
  · exact (binary_files_read_whole files "missing" [1, 2]).1 rfl

end Chip8
