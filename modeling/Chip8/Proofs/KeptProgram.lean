import Chip8.Proofs.Chunks
import Chip8.Proofs.Loading
import Chip8.Proofs.Sessions

namespace Chip8

/-!
# The program that a session keeps

A session keeps the bytes of the program that was loaded last, so that it can be loaded again.  That
program came with the command line, or from a file that could be read and was not too large; files
that cannot be loaded leave no trace.

* `kept_foldl` — what is kept while acts follow each other, each of which may bring something new.
* `RomFormat.program?` — the program in a file, if there is one that can be loaded.
* `LoadFails`, `RomFormat.program?_eq_none_iff` — why there may be none.
* `Session.perform_load`, `Session.perform_reset` — the two commands that load a program.
* `Session.rom_attend` — the program that a session keeps after some lines.
* `session_keeps_program` — all of that from the command line on.
-/

/-- Where each act either brings something new or keeps what there was, what there is in the end is
what was brought last, and what there was at first if nothing was. -/
theorem kept_foldl {State Act Thing : Type} {step : State → Act → State} {kept : State → Thing}
    {brings? : Act → Option Thing} (once : ∀ s a, kept (step s a) = (brings? a).getD (kept s))
    (s : State) (acts : List Act) :
    kept (acts.foldl step s) = (acts.filterMap brings?).getLast?.getD (kept s) := by
  induction acts generalizing s with
  | nil => rfl
  | cons act acts ih =>
    rw [List.foldl_cons, ih, once, List.filterMap_cons]
    cases brings? act with
    | none => rfl
    | some thing =>
      rw [List.getLast?_cons]
      rfl

/-- What holds of the first thing and of all that were brought holds of the one that is kept. -/
theorem kept_of_forall {Thing : Type} {P : Thing → Prop} {first : Thing} {brought : List Thing}
    (start : P first) (each : ∀ thing ∈ brought, P thing) : P (brought.getLast?.getD first) := by
  cases last : brought.getLast? with
  | none => exact start
  | some thing => exact each thing (List.mem_of_getLast? last)

/-! ### Programs in files -/

/-- The program in a file, if the file can be read and the program fits into memory. -/
def RomFormat.program? (format : RomFormat) (files : Files) (path : String) :
    Option (List UInt8) :=
  (format.read files path []).bytes?.filter fun bytes => bytes.length ≤ programCapacity

/-- Why no program is loaded from a file. -/
inductive LoadFails (files : Files) : RomFormat → String → Prop where
  /-- There is no such file. -/
  | missing {format : RomFormat} {path : String} (nothing : files.open? path = none) :
      LoadFails files format path
  /-- It cannot be read to its end, as is the case with a directory. -/
  | unreadable {path : String} {delivery : Delivery} (opened : files.open? path = some delivery)
      (broken : delivery.intact = false) : LoadFails files .binary path
  /-- What comes from it is no hex text, or hex text of no bytes, as is the case with a
  directory. -/
  | noHexText {path : String} {delivery : Delivery} (opened : files.open? path = some delivery)
      (wrong : (HexText.read (charsOfBytes delivery.received)).2 ≠ none) :
      LoadFails files .hexText path
  /-- The program is too large. -/
  | tooLarge {format : RomFormat} {path : String} {bytes : List UInt8}
      (read : (format.read files path []).bytes? = some bytes) (large : 3584 < bytes.length) :
      LoadFails files format path

namespace RomFormat

variable {format : RomFormat} {files : Files} {path : String} {bytes : List UInt8}

theorem program?_eq_some_iff :
    format.program? files path = some bytes ↔
      (format.read files path []).bytes? = some bytes ∧ bytes.length ≤ programCapacity := by
  rw [program?, Option.filter_eq_some_iff, decide_eq_true_eq]

/-- A file cannot be read just if it is missing, torn or, where it should be one, no hex text. -/
theorem bytes?_read_eq_none_iff :
    (format.read files path []).bytes? = none ↔
      files.open? path = none ∨
        ∃ delivery, files.open? path = some delivery ∧
          ((format = .binary ∧ delivery.intact = false) ∨
            (format = .hexText ∧ (HexText.read (charsOfBytes delivery.received)).2 ≠ none)) := by
  cases opened : files.open? path with
  | none =>
    cases format <;>
      simp [read, readBinary_of_missing, readHexText, opened, Reading.bytes?, Reading.ok]
  | some delivery =>
    cases format with
    | binary =>
      cases whole : delivery.intact with
      | true => simp [read, readBinary_of_intact [] opened whole, whole, Reading.bytes?, Reading.ok]
      | false => simp [read, readBinary_of_torn [] opened whole, whole, Reading.bytes?, Reading.ok]
    | hexText =>
      cases complaint : (HexText.read (charsOfBytes delivery.received)).2 <;>
        simp [read, readHexText, readText, opened, complaint, Reading.bytes?, Reading.ok]

/-- There is no program to be loaded just where a load fails. -/
theorem program?_eq_none_iff : format.program? files path = none ↔ LoadFails files format path := by
  constructor
  · intro none
    cases read : (format.read files path []).bytes? with
    | none =>
      rcases bytes?_read_eq_none_iff.mp read with nothing | ⟨delivery, opened, torn | wrong⟩
      · exact .missing nothing
      · obtain ⟨rfl, broken⟩ := torn
        exact .unreadable opened broken
      · obtain ⟨rfl, wrong⟩ := wrong
        exact .noHexText opened wrong
    | some bytes =>
      refine .tooLarge read (Nat.lt_of_not_le fun fits => ?_)
      rw [program?_eq_some_iff.mpr ⟨read, fits⟩] at none
      cases none
  · intro fails
    rw [Option.eq_none_iff_forall_ne_some]
    intro bytes loads
    obtain ⟨read, fits⟩ := program?_eq_some_iff.mp loads
    have unread : (format.read files path []).bytes? ≠ none := by simp [read]
    cases fails with
    | missing nothing => exact unread (bytes?_read_eq_none_iff.mpr (.inl nothing))
    | unreadable opened broken =>
      exact unread (bytes?_read_eq_none_iff.mpr (.inr ⟨_, opened, .inl ⟨rfl, broken⟩⟩))
    | noHexText opened wrong =>
      exact unread (bytes?_read_eq_none_iff.mpr (.inr ⟨_, opened, .inr ⟨rfl, wrong⟩⟩))
    | tooLarge read' large =>
      rw [read'] at read
      cases read
      exact absurd fits (Nat.not_le_of_gt large)

end RomFormat

/-- The program that a command loads, if it loads one from a file. -/
def Command.program? (files : Files) : Command → Option (List UInt8)
  | .load format path => format.program? files path
  | _ => none

/-- The program that a line loads, if it loads one from a file. -/
def TypedLine.program? (line : TypedLine) : Option (List UInt8) :=
  line.command.program? line.files

namespace Session

variable {s : Session} {bytes : List UInt8}

/-! ### Commands that load -/

/-- A program that fits is loaded and kept. -/
theorem loadBytes_of_fits (s : Session) (tag : String) (fits : bytes.length ≤ programCapacity) :
    s.loadBytes tag bytes =
      ({ s with machine := (s.machine.load bytes).machine, rom := bytes },
        { out := asLine ("[" ++ tag ++ "] loaded " ++ toString bytes.length ++ " bytes at "
            ++ hex 4 programStart)
          log := noticeLog [.loaded bytes.length] }) := by
  rw [loadBytes, Machine.load_of_fits s.machine fits]

/-- One that does not fit changes nothing. -/
theorem fst_loadBytes_of_oversized (s : Session) (tag : String)
    (large : programCapacity < bytes.length) : (s.loadBytes tag bytes).1 = s := by
  rw [loadBytes, Machine.load_of_oversized s.machine large]

/-- A load from a file changes the machine and the program that is kept, or nothing. -/
theorem perform_load (s : Session) (files : Files) (format : RomFormat) (path : String) :
    (s.perform files (.load format path)).1 =
      match format.program? files path with
      | some bytes => { s with machine := (s.machine.load bytes).machine, rom := bytes }
      | none => s := by
  show (s.loadPath files format path).1 = _
  cases ok : (format.read files path []).ok with
  | false =>
    have none : format.program? files path = none := by
      simp [RomFormat.program?, Reading.bytes?, ok]
    simp [loadPath, ok, none]
  | true =>
    have read : (format.read files path []).bytes? = some (format.read files path []).bytes := by
      simp [Reading.bytes?, ok]
    by_cases fits : (format.read files path []).bytes.length ≤ programCapacity
    · rw [RomFormat.program?_eq_some_iff.mpr ⟨read, fits⟩]
      simp [loadPath, ok, loadBytes_of_fits s _ fits]
    · have large := Nat.lt_of_not_le fits
      rw [RomFormat.program?_eq_none_iff.mpr (.tooLarge read large)]
      simp [loadPath, ok, fst_loadBytes_of_oversized s _ large]

/-- A reset loads the program that is kept, and changes nothing but the machine. -/
theorem perform_reset (s : Session) (files : Files) (fits : s.rom.length ≤ programCapacity) :
    s.perform files .reset =
      ({ s with machine := (s.machine.load s.rom).machine },
        { out := asLine ("[reset] loaded " ++ toString s.rom.length ++ " bytes at 0200")
            ++ registersReport (s.machine.load s.rom).machine
          log := noticeLog [.loaded s.rom.length] }) := by
  have front : "[" ++ "reset" ++ "] loaded " = "[reset] loaded " := by decide
  have place : " bytes at " ++ hex 4 programStart = " bytes at 0200" := by decide
  have back (text : String) :
      text ++ " bytes at " ++ hex 4 programStart = text ++ " bytes at 0200" := by
    rw [String.append_assoc, place]
  show s.reload = _
  rw [reload, loadBytes_of_fits s _ fits, front, back]

/-- No other command touches the program that is kept. -/
theorem rom_perform (s : Session) (files : Files) (command : Command) :
    (s.perform files command).1.rom = (command.program? files).getD s.rom := by
  cases command with
  | load format path =>
    rw [perform_load, Command.program?]
    cases format.program? files path <;> rfl
  | reset =>
    show s.reload.1.rom = s.rom
    by_cases fits : s.rom.length ≤ programCapacity
    · rw [reload, loadBytes_of_fits s _ fits]
    · have kept := fst_loadBytes_of_oversized s "reset" (Nat.lt_of_not_le fits)
      rw [reload]
      exact congrArg Session.rom kept
  | _ => rfl

/-! ### Lines one after another -/

/-- The program that was loaded last from a file while some lines were answered, and a given one if
none was. -/
def lastProgram (first : List UInt8) (lines : List TypedLine) : List UInt8 :=
  ((answered lines).filterMap TypedLine.program?).getLast?.getD first

/-- The session keeps the program that was loaded last. -/
theorem rom_attend (s : Session) (lines : List TypedLine) :
    (s.attend lines).rom = lastProgram s.rom lines :=
  kept_foldl (fun s line => s.rom_perform line.files line.command) s (answered lines)

/-- A program that was loaded from a file fits into memory, and so does the first one if it
did. -/
theorem length_lastProgram {first : List UInt8} (fits : first.length ≤ programCapacity)
    (lines : List TypedLine) : (lastProgram first lines).length ≤ programCapacity := by
  refine kept_of_forall (P := fun bytes : List UInt8 => bytes.length ≤ programCapacity)
    fits ?_
  intro bytes mem
  obtain ⟨line, -, loaded⟩ := List.mem_filterMap.mp mem
  unfold TypedLine.program? at loaded
  cases command : line.command with
  | load format path =>
    rw [command, Command.program?] at loaded
    exact (RomFormat.program?_eq_some_iff.mp loaded).2
  | _ =>
    rw [command] at loaded
    cases loaded

end Session

/-! ### From the command line on -/

/-- A session begins with a program that could be read and that fits into memory. -/
theorem Startup.program_of_opens {files : Files} {random : RandomSource} {arguments : List String}
    {s : Session} {reply : Reply} (opens : ofArguments files random arguments = .opens s reply) :
    let o := (Options.parse {} arguments).1
    (readProgram files o.format o.romPath).bytes? = some s.rom ∧ s.rom.length ≤ programCapacity ∧
      s.machine = ((Machine.powerOn o.dialect o.traceLimit random).load s.rom).machine := by
  intro o
  unfold ofArguments at opens
  split at opens
  · cases opens
  · next o' parsed =>
    have same : o = o' := congrArg Prod.fst parsed
    rw [← same] at opens
    split at opens
    · cases opens
    · dsimp only at opens
      split at opens
      · next ok =>
        unfold ofProgram at opens
        by_cases fits : (readProgram files o.format o.romPath).bytes.length ≤ programCapacity
        · simp only [Machine.load_of_fits _ fits] at opens
          cases opens
          refine ⟨by simp [Reading.bytes?, ok], fits, ?_⟩
          rw [Machine.load_of_fits _ fits]
        · simp only [Machine.load_of_oversized _ (Nat.lt_of_not_le fits)] at opens
          cases opens
      · cases opens

/-- A session always knows its program.  Let a command line begin a session: it has then loaded the
demo or the file that the command line names.  Whatever lines are typed, whatever files there are
when each of them is answered, and whatever the machine did and had done to it, the session keeps
the bytes of the program that was loaded last, at most 3584 of them.  So a reset always succeeds: it
leaves the machine as if these bytes had been loaded into one just powered on and set up in the same
way, and changes nothing else.  And a load changes nothing at all where it fails, because the file
is missing, unreadable, no hex text, or too large; otherwise it loads the file and keeps its bytes.
-/
theorem session_keeps_program {files : Files} {random : RandomSource} {arguments : List String}
    {opened : Session} {reply : Reply}
    (opens : Startup.ofArguments files random arguments = .opens opened reply) :
    let o := (Options.parse {} arguments).1
    ((readProgram files o.format o.romPath).bytes? = some opened.rom ∧
      opened.machine =
        ((Machine.powerOn o.dialect o.traceLimit random).load opened.rom).machine) ∧
    (∀ input, (opened.converse files input reply).1 =
      opened.attend (input.map (TypedLine.mk files))) ∧
    ∀ lines : List TypedLine,
      let s := opened.attend lines
      (s.rom = Session.lastProgram opened.rom lines ∧ s.rom.length ≤ 3584) ∧
      (∀ files operands,
        let fresh := Machine.powerOn s.machine.dialect s.machine.traceLimit s.machine.random
        (s.perform files (.ofWords "reset" operands)).1 =
            { s with machine := (fresh.load s.rom).machine } ∧
          (fresh.load s.rom).fault? = none ∧
          (s.perform files (.ofWords "reset" operands)).2.out =
            asLine ("[reset] loaded " ++ toString s.rom.length ++ " bytes at 0200")
              ++ registersReport (fresh.load s.rom).machine) ∧
      ∀ files format word operands,
        let path := String.ofList word
        (LoadFails files format path →
          (s.perform files (.ofWords format.command (word :: operands))).1 = s) ∧
        (¬ LoadFails files format path →
          ∃ bytes, format.program? files path = some bytes ∧
            (s.perform files (.ofWords format.command (word :: operands))).1 =
              { s with machine := (s.machine.load bytes).machine, rom := bytes }) := by
  intro o
  obtain ⟨read, fits, loaded⟩ := Startup.program_of_opens opens
  refine ⟨⟨read, loaded⟩, ?_, ?_⟩
  · intro input
    exact Session.fst_converse files input opened reply
  intro lines s
  have kept : s.rom = Session.lastProgram opened.rom lines := opened.rom_attend lines
  have small : s.rom.length ≤ programCapacity := by
    rw [kept]
    exact Session.length_lastProgram fits lines
  refine ⟨⟨kept, small⟩, ?_, ?_⟩
  · intro files operands fresh
    have reset := s.perform_reset files small
    have anew : s.machine.load s.rom = fresh.load s.rom := by
      rw [Machine.load_of_fits _ small, Machine.load_of_fits _ small]
      rfl
    rw [anew] at reset
    refine ⟨congrArg Prod.fst reset, ?_, congrArg (·.2.out) reset⟩
    rw [Machine.load_of_fits _ small]
  · intro files format word operands path
    have command : Command.ofWords format.command (word :: operands) = .load format path := by
      cases format <;> rfl
    have load := s.perform_load files format path
    rw [command]
    constructor
    · intro fails
      rw [RomFormat.program?_eq_none_iff.mpr fails] at load
      exact load
    · intro succeeds
      rw [← RomFormat.program?_eq_none_iff, ← ne_eq, Option.ne_none_iff_exists'] at succeeds
      obtain ⟨bytes, program⟩ := succeeds
      rw [program] at load
      exact ⟨bytes, program, load⟩

/-- A session that begins with a program of four bytes has one of them overwritten, runs into a
fault, and then tries a directory, a file that is too large and a file that is not there: it is
reset to the four bytes all the same.  Then it loads a byte of hex text. -/
theorem session_keeps_program_failed_loads :
    let game : List UInt8 := [0x60, 0x01, 0xFF, 0xFF]
    let files : Files := fun name =>
      if name = "game" then some (.piece game .ended)
      else if name = "text" then some (.piece [0x45, 0x65, 0x23] .ended)
      else if name = "large" then some (.piece (List.replicate 3585 0xAA) .ended)
      else if name = "folder" then some .failed
      else none
    let loaded := (Machine.powerOn {} Machine.defaultTraceLimit default).load game
    let opened : Session := { machine := loaded.machine, rom := game }
    let reply : Reply :=
      { out := banner ++ registersReport loaded.machine, log := noticeLog loaded.notices }
    let tried := ["w 201 77", "r 5", "loadbin folder", "loadbin large", "loadhex none"].map
      fun text => TypedLine.mk files text.toList
    let later := tried ++ [⟨files, "reset".toList⟩, ⟨files, "loadhex text".toList⟩]
    let s := opened.attend tried
    let fresh := Machine.powerOn s.machine.dialect s.machine.traceLimit s.machine.random
    (Startup.ofArguments files default ["game"] = .opens opened reply ∧
      s.machine.memory.read 0x201 = 0x77 ∧ s.machine.isHalted = true) ∧
      (s.rom = game ∧ (opened.attend later).rom = [0xEE]) ∧
      (s.perform files (.ofWords "reset" [])).1 = { s with machine := (fresh.load s.rom).machine } ∧
      (s.perform files (.ofWords "loadbin" ["large".toList])).1 = s := by
  intro game files loaded opened reply tried later
  have game? : files.open? "game" = some (.piece game .ended) := rfl
  have large? : files.open? "large" = some (.piece (List.replicate 3585 0xAA) .ended) := rfl
  have reads : readBinary files "game" [] = { bytes := game } := readBinary_of_intact [] game? rfl
  have opens : Startup.ofArguments files default ["game"] = .opens opened reply := by
    show (let reading := readBinary files "game" []
      if reading.ok then Startup.ofProgram { romPath := "game" } default reading
      else .ends 1 { log := reading.log }) = _
    rw [reads]
    rfl
  have facts : ((opened.attend tried).machine.memory.read 0x201 = 0x77 ∧
      (opened.attend tried).machine.isHalted = true) ∧
      Session.lastProgram game tried = game ∧ Session.lastProgram game later = [0xEE] := by
    decide +kernel
  obtain ⟨happened, kept, kept'⟩ := facts
  obtain ⟨-, -, prompts⟩ := session_keeps_program opens
  obtain ⟨⟨rom, -⟩, reset, load⟩ := prompts tried
  obtain ⟨⟨rom', -⟩, -⟩ := prompts later
  have large : LoadFails files .binary "large" := by
    have read : (RomFormat.binary.read files "large" []).bytes? =
        some (List.replicate 3585 0xAA ++ []) :=
      congrArg Reading.bytes? (readBinary_of_intact [] large? rfl)
    refine .tooLarge read ?_
    rw [List.append_nil, List.length_replicate]
    decide
  have refused := (load files .binary "large".toList []).1
  rw [String.ofList_toList] at refused
  exact ⟨⟨opens, happened⟩, ⟨rom.trans kept, rom'.trans kept'⟩, (reset files []).1, refused large⟩

end Chip8
