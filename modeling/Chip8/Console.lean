import Chip8.Machine
import Chip8.Rom.Files
import Chip8.Text

namespace Chip8

/-!
# The console

A console is a machine together with the program that was last loaded into it and a line
that tells how the last attempt to load one went.

* `Console.reading` — what is read for a console.
* `Console.load` — try to load a program; what cannot be loaded changes only the line.
-/

/-- How the last attempt to load a program went. -/
inductive LoadStatus where
  /-- There was none. -/
  | none
  /-- The file could not be read. -/
  | unreadable (path : String)
  /-- The machine refused the program. -/
  | refused (fault : Fault)
  /-- A program of some bytes was loaded. -/
  | loaded (size : Nat)
  deriving DecidableEq

/-- The text of a status. -/
def LoadStatus.text : LoadStatus → String
  | none => ""
  | unreadable path => "failed to read '" ++ path ++ "'"
  | refused fault => fault.text
  | loaded size => "loaded " ++ toString size ++ " bytes"

/-- A machine and the program in it. -/
structure Console where
  /-- The machine. -/
  machine : Machine
  /-- The program that was loaded last. -/
  rom : List UInt8 := []
  /-- How the last attempt to load a program went. -/
  status : LoadStatus := .none

/-- What an attempt to load a program leaves behind. -/
structure LoadAttempt where
  /-- The console afterwards. -/
  console : Console
  /-- Whether the program was loaded. -/
  ok : Bool
  /-- What was written to the log. -/
  log : String

/-- Notices as lines of text. -/
def noticeLog (notices : List Notice) : String :=
  asLines (notices.map Notice.text)

namespace Console

/-- What is read for a console: the demo if the path is empty, and a file otherwise. -/
def reading (files : Files) (format : RomFormat) (path : String) : Reading :=
  if path.isEmpty then { bytes := Demo.program }
  else
    match format with
    | .hexText => readHexText files path []
    | .binary => readBinary files path []

/-- That is what is read for a command line as well. -/
theorem reading_eq_readProgram (files : Files) (format : RomFormat) (path : String) :
    reading files format path = readProgram files format path := by
  cases format <;> rfl

/-- Try to load a program, or the demo if the path is empty. -/
def load (c : Console) (files : Files) (format : RomFormat) (path : String) : LoadAttempt :=
  let reading := reading files format path
  if reading.ok then
    let o := c.machine.load reading.bytes
    match o.fault? with
    | some fault =>
      { console := { c with status := .refused fault }
        ok := false
        log := reading.log ++ noticeLog o.notices }
    | none =>
      { console :=
          { machine := o.machine, rom := reading.bytes, status := .loaded reading.bytes.length }
        ok := true
        log := reading.log ++ noticeLog o.notices }
  else
    { console := { c with status := .unreadable path }, ok := false, log := reading.log }

end Console

end Chip8
