import Chip8.Debugger.Session

/-!
# The command line

The debugger as a program: it reads lines from standard input, looks up the files that a
line names, sleeps as long as the session says, and writes the answers.
-/

namespace Chip8.Main

/-! ### Bytes and text -/

/-- Text whose characters are the bytes of a string of the outer world. -/
def inward (text : String) : String :=
  String.ofList (charsOfBytes text.toUTF8.toList)

/-- The bytes that a text stands for. -/
def bytesOfText (text : String) : ByteArray :=
  ByteArray.mk (text.toList.map fun c => UInt8.ofNat c.toNat).toArray

/-- The string of the outer world whose bytes are the characters of a text. -/
def outward? (text : String) : Option String := String.fromUTF8? (bytesOfText text)

/-! ### Input and output -/

/-- Write an answer. -/
def write (reply : Reply) : IO Unit := do
  let out ← IO.getStdout
  let log ← IO.getStderr
  log.write (bytesOfText reply.log)
  out.write (bytesOfText reply.out)
  out.flush

/-- The next line of the input without its end; nothing at the end of the input. -/
partial def readLine? (input : IO.FS.Stream) (line : List Char := []) :
    IO (Option (List Char)) := do
  let bytes ← input.read 1
  match charsOfBytes bytes.toList with
  | [] => return if line.isEmpty then none else some line.reverse
  | c :: _ => if c = '\n' then return some line.reverse else readLine? input (c :: line)

/-- The size of the pieces in which files are read. -/
def pieceSize : USize := 4096

/-- What comes from an open file. -/
partial def deliver (handle : IO.FS.Handle) : IO Delivery := do
  match ← (handle.read pieceSize).toBaseIO with
  | .error _ => return .failed
  | .ok bytes =>
    if bytes.isEmpty then return .ended
    else return .piece bytes.toList (← deliver handle)

/-- What comes from the file with a name, if it can be opened. -/
def lookUp (name : String) : IO (Option Delivery) := do
  match outward? name with
  | none => return none
  | some name =>
    match ← (IO.FS.Handle.mk name .read).toBaseIO with
    | .error _ => return none
    | .ok handle => return some (← deliver handle)

/-- A directory in which the name of a path has been looked up. -/
def filesAt (path : String) : IO Files := do
  let name := Files.nameOf path
  let delivery ← lookUp name
  return fun other => if other = name then delivery else none

/-- The path of the file that a command reads. -/
def pathOf : Command → String
  | .load _ path => path
  | _ => ""

/-- A random source that differs from run to run. -/
def freshSource : IO RandomSource := do
  let bytes ← IO.getRandomBytes 8
  return .seeded (bytes.toList.foldl (fun n b => n * 256 + b.toUInt64) 0)

/-! ### Sessions -/

/-- Sleep as long as a session has moved its clock. -/
def sleepFor (nanoseconds : Nat) : IO Unit := do
  if 0 < nanoseconds then
    IO.sleep (UInt32.ofNat (nanoseconds / 1000000))

/-- Answer lines until one asks to leave or there are no more. -/
partial def answer (input : IO.FS.Stream) (session : Session) : IO Unit := do
  write Session.prompt
  match ← readLine? input with
  | none => return ()
  | some line =>
    match Command.ofLine line with
    | .quit => return ()
    | command =>
      let files ← filesAt (pathOf command)
      let (after, reply) := session.perform files command
      sleepFor (after.clock - session.clock)
      write reply
      answer input after

/-- Run the debugger with the arguments of a command line. -/
def run (arguments : List String) : IO UInt32 := do
  let arguments := arguments.map inward
  let path := (Options.parse {} arguments).1.romPath
  let files ← filesAt path
  match Startup.ofArguments files (← freshSource) arguments with
  | .ends code reply =>
    write reply
    return UInt32.ofNat code
  | .opens session reply =>
    write reply
    answer (← IO.getStdin) session
    return 0

end Chip8.Main

/-- The debugger as a program. -/
def main (arguments : List String) : IO UInt32 := Chip8.Main.run arguments
