import Chip8.Proofs.Demo
import Chip8.Proofs.KeptProgram

namespace Chip8

/-!
# Programs for a console

A console loads what a command line would load, and what cannot be loaded leaves nothing behind but
the line that says so.  However loads and steps follow each other, the console keeps the bytes of
the program that was loaded last.

* `LoadAttempt.Loads`, `LoadAttempt.Leaves` — the two ways in which an attempt can go.
* `Console.load_of_fits`, `Console.load_of_oversized`, `Console.load_of_unread` — which way an
  attempt goes.
* `programAt?` — the program under a path, if there is one that can be loaded.
* `Console.Act`, `Console.after` — loads and other things that are done one after another.
* `Startup.ofArguments_of_parse` — what a command line does that is understood.
* `console_loads_atomically` — all of that in one statement.
-/

/-! ### One attempt -/

/-- An attempt that put some bytes into the machine of a console. -/
structure LoadAttempt.Loads (a : LoadAttempt) (c : Console) (bytes : List UInt8) : Prop where
  ok : a.ok = true
  machine : a.console.machine = (c.machine.load bytes).machine
  rom : a.console.rom = bytes
  status : a.console.status.text = "loaded " ++ toString bytes.length ++ " bytes"

/-- An attempt that left a console as it was, but for the line that tells why. -/
structure LoadAttempt.Leaves (a : LoadAttempt) (c : Console) (why : String) : Prop where
  ok : a.ok = false
  machine : a.console.machine = c.machine
  rom : a.console.rom = c.rom
  status : a.console.status.text = why

/-- The program under a path: the demo if the path is empty, and otherwise the one in a file, if
there is one that can be loaded. -/
def programAt? (files : Files) (format : RomFormat) (path : String) : Option (List UInt8) :=
  if path.isEmpty then some Demo.program else format.program? files path

section Attempt

variable {files : Files} {format : RomFormat} {path : String} {bytes : List UInt8}

/-- That is what is read, if it fits into memory. -/
theorem programAt?_eq_some_iff :
    programAt? files format path = some bytes ↔
      (readProgram files format path).bytes? = some bytes ∧ bytes.length ≤ programCapacity := by
  unfold programAt? readProgram
  split
  · constructor
    · intro demo
      cases demo
      exact ⟨rfl, Demo.program_fits⟩
    · exact And.left
  · exact RomFormat.program?_eq_some_iff

/-- There is none just if the path leads to a file that cannot be loaded. -/
theorem programAt?_eq_none_iff :
    programAt? files format path = none ↔ path ≠ "" ∧ LoadFails files format path := by
  rw [← RomFormat.program?_eq_none_iff, programAt?, ne_eq, ← String.isEmpty_iff]
  cases path.isEmpty <;> simp

/-- What is read, if anything is, is what is left in the buffer. -/
theorem Reading.bytes?_eq_some_iff {r : Reading} :
    r.bytes? = some bytes ↔ r.ok = true ∧ r.bytes = bytes := by
  rw [bytes?, Option.ite_none_right_eq_some, Option.some.injEq]

namespace Console

/-- A program that is read and fits is loaded. -/
theorem load_of_fits (c : Console) (read : (readProgram files format path).bytes? = some bytes)
    (fits : bytes.length ≤ programCapacity) : (c.load files format path).Loads c bytes := by
  obtain ⟨ok, rfl⟩ := Reading.bytes?_eq_some_iff.mp read
  have loaded := Machine.load_of_fits c.machine fits
  unfold load
  simp only [reading_eq_readProgram, ok, if_true, loaded]
  exact ⟨rfl, by rw [loaded], rfl, rfl⟩

/-- One that is read and does not fit is refused. -/
theorem load_of_oversized (c : Console)
    (read : (readProgram files format path).bytes? = some bytes)
    (large : programCapacity < bytes.length) :
    (c.load files format path).Leaves c "RomTooLarge" := by
  obtain ⟨ok, rfl⟩ := Reading.bytes?_eq_some_iff.mp read
  unfold load
  simp only [reading_eq_readProgram, ok, if_true, Machine.load_of_oversized c.machine large]
  exact ⟨rfl, rfl, rfl, rfl⟩

/-- Where nothing can be read, nothing is loaded. -/
theorem load_of_unread (c : Console) (unread : (readProgram files format path).bytes? = none) :
    (c.load files format path).Leaves c ("failed to read '" ++ path ++ "'") := by
  have torn : (readProgram files format path).ok = false := by
    rw [Reading.bytes?, ite_eq_right_iff] at unread
    simpa using unread
  unfold load
  simp only [reading_eq_readProgram, torn, Bool.false_eq_true, if_false]
  exact ⟨rfl, rfl, rfl, rfl⟩

/-- Where there is no program that can be loaded, nothing is. -/
theorem load_of_no_program (c : Console) (none : programAt? files format path = none) :
    ∃ why, (c.load files format path).Leaves c why := by
  cases read : (readProgram files format path).bytes? with
  | none => exact ⟨_, c.load_of_unread read⟩
  | some bytes =>
    refine ⟨_, c.load_of_oversized read (Nat.lt_of_not_le fun fits => ?_)⟩
    rw [programAt?_eq_some_iff.mpr ⟨read, fits⟩] at none
    cases none

/-- An attempt succeeds just if there is a program that can be loaded. -/
theorem ok_load (c : Console) (files : Files) (format : RomFormat) (path : String) :
    (c.load files format path).ok = (programAt? files format path).isSome := by
  cases program : programAt? files format path with
  | none =>
    obtain ⟨why, leaves⟩ := c.load_of_no_program program
    exact leaves.ok
  | some bytes =>
    obtain ⟨read, fits⟩ := programAt?_eq_some_iff.mp program
    exact (c.load_of_fits read fits).ok

end Console

end Attempt

/-- A command line that is understood, and asks for more than help, opens a session with what a
console would have loaded, and ends at once where a console would have loaded nothing. -/
theorem Startup.ofArguments_of_parse {files : Files} {random : RandomSource}
    {arguments : List String} {o : Options} (parsed : Options.parse {} arguments = (o, none))
    (wanted : o.help = false) :
    let c : Console := { machine := .powerOn o.dialect o.traceLimit random }
    let attempt := c.load files o.format o.romPath
    (attempt.ok = true → ∃ reply, ofArguments files random arguments =
      .opens
        { machine := attempt.console.machine
          rom := attempt.console.rom
          stepsPerFrame := o.stepsPerFrame }
        reply) ∧
    (attempt.ok = false → ∃ reply, ofArguments files random arguments = .ends 1 reply) := by
  intro c attempt
  have begins : ofArguments files random arguments =
      if (readProgram files o.format o.romPath).ok then
        ofProgram o random (readProgram files o.format o.romPath)
      else .ends 1 { log := (readProgram files o.format o.romPath).log } := by
    simp [ofArguments, parsed, wanted]
  refine ⟨?_, ?_⟩
  · intro ok
    rw [c.ok_load, Option.isSome_iff_exists] at ok
    obtain ⟨bytes, program⟩ := ok
    obtain ⟨read, fits⟩ := programAt?_eq_some_iff.mp program
    have loads := c.load_of_fits read fits
    obtain ⟨ok, rfl⟩ := Reading.bytes?_eq_some_iff.mp read
    rw [begins, if_pos ok, loads.machine, loads.rom, ofProgram]
    simp only [Machine.load_of_fits _ fits]
    exact ⟨_, rfl⟩
  · -- where nothing was read and where it was too large, the exit code is the same
    intro fails
    rw [begins]
    split
    · next ok =>
      have large : programCapacity < (readProgram files o.format o.romPath).bytes.length := by
        refine Nat.lt_of_not_le fun fits => ?_
        have loads := c.load_of_fits (Reading.bytes?_eq_some_iff.mpr ⟨ok, rfl⟩) fits
        cases loads.ok.symm.trans fails
      rw [ofProgram]
      simp only [Machine.load_of_oversized _ large]
      exact ⟨_, rfl⟩
    · exact ⟨_, rfl⟩

namespace Console

/-! ### One thing after another -/

/-- Something that is done to a console: an attempt to load a program, or anything else that is done
to its machine. -/
inductive Act where
  /-- Try to load a program. -/
  | load (files : Files) (format : RomFormat) (path : String)
  /-- Do something else to the machine. -/
  | operate (o : Operation)

/-- The console after something was done. -/
def perform (c : Console) : Act → Console
  | .load files format path => (c.load files format path).console
  | .operate o => { c with machine := (o.perform c.machine).machine }

/-- The console after some things were done. -/
def after (c : Console) (acts : List Act) : Console := acts.foldl perform c

/-- The program that is loaded, if one is. -/
def Act.program? : Act → Option (List UInt8)
  | .load files format path => programAt? files format path
  | .operate _ => none

/-- The program that was loaded last, and no bytes if none was. -/
def lastProgram (acts : List Act) : List UInt8 :=
  (acts.filterMap Act.program?).getLast?.getD []

/-- A load changes the program that is kept if it succeeds, and nothing else does. -/
theorem rom_perform (c : Console) (act : Act) :
    (c.perform act).rom = act.program?.getD c.rom := by
  cases act with
  | operate o => rfl
  | load files format path =>
    show (c.load files format path).console.rom = (programAt? files format path).getD c.rom
    cases program : programAt? files format path with
    | none =>
      obtain ⟨why, leaves⟩ := c.load_of_no_program program
      exact leaves.rom
    | some bytes =>
      obtain ⟨read, fits⟩ := programAt?_eq_some_iff.mp program
      exact (c.load_of_fits read fits).rom

/-- A console that began without a program keeps the one that was loaded last. -/
theorem rom_after {c : Console} (bare : c.rom = []) (acts : List Act) :
    (c.after acts).rom = lastProgram acts := by
  rw [lastProgram, ← bare]
  exact kept_foldl rom_perform c acts

/-- What was loaded fits into memory. -/
theorem length_lastProgram (acts : List Act) : (lastProgram acts).length ≤ programCapacity := by
  refine kept_of_forall (P := fun bytes : List UInt8 => bytes.length ≤ programCapacity)
    (Nat.zero_le _) ?_
  intro bytes mem
  obtain ⟨act, -, loaded⟩ := List.mem_filterMap.mp mem
  cases act with
  | operate o => cases loaded
  | load files format path => exact (programAt?_eq_some_iff.mp loaded).2

end Console

/-- A console loads a program as a command line does, or changes nothing.  Whatever the machine of a
console does or has done, whatever program it keeps and whatever its line says, an attempt to load
succeeds just if the command line reads bytes under the same path and in the same format, and at
most 3584 of them.  Then the machine is as after a load of these bytes, the console keeps them, and
the line tells how many there are.  Otherwise the path leads to a file that is missing, unreadable,
no hex text, or too large; machine and program are as before, and the line tells why.  A command
line that is understood opens a session with the same machine and program, or ends where a console
would have loaded nothing.  So a console that began without a program keeps, however loads and other
things follow each other, the bytes that were loaded last, and they can always be loaded again. -/
theorem console_loads_atomically (c : Console) (files : Files) (format : RomFormat)
    (path : String) :
    let attempt := c.load files format path
    let read := (readProgram files format path).bytes?
    ((attempt.ok = true ↔ ∃ bytes, read = some bytes ∧ bytes.length ≤ 3584) ∧
      (attempt.ok = false ↔ path ≠ "" ∧ LoadFails files format path) ∧
      ∀ bytes, programAt? files format path = some bytes ↔
        read = some bytes ∧ bytes.length ≤ 3584) ∧
    ((∀ bytes, read = some bytes → bytes.length ≤ 3584 → attempt.Loads c bytes) ∧
      (∀ bytes, read = some bytes → 3584 < bytes.length → attempt.Leaves c "RomTooLarge") ∧
      (read = none → attempt.Leaves c ("failed to read '" ++ path ++ "'"))) ∧
    (∀ random arguments o, Options.parse {} arguments = (o, none) → o.help = false →
      let started : LoadAttempt :=
        Console.load { machine := .powerOn o.dialect o.traceLimit random } files o.format o.romPath
      (started.ok = true → ∃ reply, Startup.ofArguments files random arguments =
        .opens
          { machine := started.console.machine
            rom := started.console.rom
            stepsPerFrame := o.stepsPerFrame }
          reply) ∧
      (started.ok = false → ∃ reply, Startup.ofArguments files random arguments =
        .ends 1 reply)) ∧
    ∀ acts : List Console.Act, c.rom = [] →
      let s := c.after acts
      s.rom = Console.lastProgram acts ∧ s.rom.length ≤ 3584 ∧
        (s.machine.load s.rom).fault? = none := by
  intro attempt read
  refine ⟨⟨?_, ?_, fun bytes => programAt?_eq_some_iff⟩, ⟨?_, ?_, ?_⟩, ?_, ?_⟩
  · show (c.load files format path).ok = true ↔ _
    rw [c.ok_load, Option.isSome_iff_exists]
    exact exists_congr fun bytes => programAt?_eq_some_iff
  · show (c.load files format path).ok = false ↔ _
    rw [c.ok_load, Option.isSome_eq_false_iff, Option.isNone_iff_eq_none]
    exact programAt?_eq_none_iff
  · exact fun bytes => c.load_of_fits
  · exact fun bytes => c.load_of_oversized
  · exact c.load_of_unread
  · intro random arguments o parsed wanted
    exact Startup.ofArguments_of_parse parsed wanted
  · intro acts bare s
    have kept : s.rom = Console.lastProgram acts := Console.rom_after bare acts
    have small : s.rom.length ≤ programCapacity := by
      rw [kept]
      exact Console.length_lastProgram acts
    refine ⟨kept, small, ?_⟩
    rw [Machine.load_of_fits _ small]

/-- A console loads a game of four bytes that runs into a fault, and then tries a directory, a file
that is too large and one that is not there.  It keeps the game all the same, and then refuses the
large file and takes the demo.  A command line loads the game as well. -/
theorem console_loads_atomically_failed_loads :
    let game : List UInt8 := [0x60, 0x01, 0xFF, 0xFF]
    let files : Files := fun name =>
      if name = "game" then some (.piece game .ended)
      else if name = "large" then some (.piece (List.replicate 3585 0xAA) .ended)
      else if name = "folder" then some .failed
      else none
    let c : Console := { machine := default }
    let acts : List Console.Act :=
      [.load files .binary "game", .operate .step, .operate .step, .load files .binary "folder",
        .load files .binary "large", .load files .hexText "none", .operate .step]
    let s := c.after acts
    (s.machine.isHalted = true ∧ s.status.text = "failed to read 'none'") ∧
      (s.rom = game ∧ (s.machine.load s.rom).fault? = none) ∧
      (s.load files .binary "large").Leaves s "RomTooLarge" ∧
      (s.load files .binary "").Loads s Demo.program ∧
      ∃ reply, Startup.ofArguments files default ["game"] =
        .opens { machine := (c.machine.load game).machine, rom := game } reply := by
  intro game files c acts s
  have facts : (s.machine.isHalted = true ∧ s.status.text = "failed to read 'none'") ∧
      Console.lastProgram acts = game := by
    decide +kernel
  obtain ⟨happened, last⟩ := facts
  have size : 3584 < (List.replicate 3585 (0xAA : UInt8) ++ []).length := by
    rw [List.append_nil, List.length_replicate]
    decide
  have game? : files.open? "game" = some (.piece game .ended) := rfl
  have large? : files.open? "large" = some (.piece (List.replicate 3585 0xAA) .ended) := rfl
  have bytes : (readProgram files .binary "game").bytes? = some game :=
    congrArg Reading.bytes? (readBinary_of_intact [] game? rfl)
  have bytes' : (readProgram files .binary "large").bytes? = some (List.replicate 3585 0xAA ++ []) :=
    congrArg Reading.bytes? (readBinary_of_intact [] large? rfl)
  obtain ⟨-, ⟨-, refused, -⟩, -⟩ := console_loads_atomically s files .binary "large"
  obtain ⟨-, ⟨taken, -⟩, -⟩ := console_loads_atomically s files .binary ""
  obtain ⟨-, ⟨loads, -⟩, opens, sequence⟩ := console_loads_atomically c files .binary "game"
  obtain ⟨kept, -, again⟩ := sequence acts rfl
  have loaded := loads game bytes (by decide)
  obtain ⟨reply, opened⟩ := (opens default ["game"] { romPath := "game" } rfl rfl).1 loaded.ok
  refine ⟨happened, ⟨kept.trans last, again⟩, refused _ bytes' size,
    taken Demo.program rfl (by decide), reply, opened.trans ?_⟩
  show Startup.opens
    { machine := (c.load files .binary "game").console.machine
      rom := (c.load files .binary "game").console.rom } reply = _
  rw [loaded.machine, loaded.rom]

end Chip8
