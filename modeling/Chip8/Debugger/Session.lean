import Chip8.Console
import Chip8.Debugger.Command
import Chip8.Debugger.Report
import Chip8.Debugger.Run

namespace Chip8

/-!
# Sessions of the debugger

A session holds a machine, the program it was loaded with, breakpoints, a number of steps
per frame, and the time that has been slept.  Lines are answered one after another.

* `Session.perform` — the session after a command, and the answer.
* `Session.converse` — a session over a list of lines.
* `Startup.ofArguments` — how a command line begins a session, or ends the program.
-/

/-- What the debugger holds between lines. -/
structure Session where
  /-- The machine. -/
  machine : Machine
  /-- The program that was loaded last. -/
  rom : List UInt8
  /-- The breakpoints. -/
  breakpoints : Breakpoints := []
  /-- Steps in a frame. -/
  stepsPerFrame : Nat := 10
  /-- The time that has been slept, in nanoseconds. -/
  clock : Nat := 0

/-- What is written as an answer. -/
structure Reply where
  /-- The answer itself. -/
  out : String := ""
  /-- What goes to the log. -/
  log : String := ""
  deriving DecidableEq, Repr, Inhabited

/-- One answer after another. -/
def Reply.append (a b : Reply) : Reply := { out := a.out ++ b.out, log := a.log ++ b.log }

instance : Append Reply := ⟨Reply.append⟩

/-- An answer of one line. -/
def Reply.line (message : String) : Reply := { out := asLine message }

/-- The text for the end of a run. -/
def Run.report (r : Run) : String :=
  match r.stop with
  | .finished => ""
  | .fault fault => asLine ("* Fault: " ++ fault.text)
  | .breakpoint => asLine ("* break at " ++ hexWord r.machine.pc)

namespace Session

/-! ### Parts of commands -/

/-- The session after a run, which is reported together with the registers. -/
def afterRun (s : Session) (r : Run) (clock : Nat) : Session × Reply :=
  ({ s with machine := r.machine, clock := clock },
    { out := r.report ++ registersReport r.machine, log := noticeLog r.notices })

/-- Take one step, whether the machine has halted or not. -/
def singleStep (m : Machine) : Run :=
  let o := m.step
  match o.fault? with
  | some fault => { machine := o.machine, stop := .fault fault, notices := o.notices }
  | none => { machine := o.machine, notices := o.notices }

/-- Load a program under a tag.  One that the machine refuses leaves the session alone. -/
def loadBytes (s : Session) (tag : String) (bytes : List UInt8) : Session × Reply :=
  let o := s.machine.load bytes
  let size := toString bytes.length
  match o.fault? with
  | some fault =>
    (s,
      { out := asLine ("[" ++ tag ++ "] " ++ fault.text ++ " (" ++ size ++ " bytes, max "
          ++ toString programCapacity ++ ")")
        log := noticeLog o.notices })
  | none =>
    ({ s with machine := o.machine, rom := bytes },
      { out := asLine ("[" ++ tag ++ "] loaded " ++ size ++ " bytes at "
          ++ hex 4 programStart)
        log := noticeLog o.notices })

/-- Load a program from a file. -/
def loadPath (s : Session) (files : Files) (format : RomFormat) (path : String) :
    Session × Reply :=
  let reading := format.read files path []
  if reading.ok then
    let (after, reply) := s.loadBytes format.command reading.bytes
    (after, { reply with log := reading.log ++ reply.log })
  else
    (s,
      { out := asLine ("[" ++ format.command ++ "] failed to read '" ++ path ++ "'")
        log := reading.log })

/-- Load the current program again. -/
def reload (s : Session) : Session × Reply :=
  let (after, reply) := s.loadBytes "reset" s.rom
  (after, { reply with out := reply.out ++ registersReport after.machine })

/-- The breakpoints with the instruction at each. -/
def breakpointReport (s : Session) : String :=
  if s.breakpoints.isEmpty then asLine "(no breakpoints)"
  else
    asLines (s.breakpoints.map fun a =>
      "  " ++ hexWord a.toWord ++ "  " ++ listing (s.machine.fetch a.toWord))

/-- The number of steps in a frame. -/
def speedReport (s : Session) : String := asLine ("ipf=" ++ toString s.stepsPerFrame)

/-! ### Commands -/

/-- The session after a command, and the answer. -/
def perform (files : Files) (s : Session) : Command → Session × Reply
  | .blank => (s, {})
  | .rejected reason => (s, .line reason.message)
  | .quit => (s, {})
  | .help => (s, { out := helpText })
  | .step => s.afterRun (singleStep s.machine) s.clock
  | .frames count => s.afterRun (runFrames [] s.stepsPerFrame count s.machine) s.clock
  | .run count => s.afterRun (runSteps s.breakpoints count s.machine) s.clock
  | .go seconds =>
    let count := seconds * FrameClock.defaultRate
    let r := runPaced s.breakpoints s.stepsPerFrame count s.clock s.machine
    s.afterRun r.run r.clock
  | .registers => (s, { out := registersReport s.machine })
  | .dump start rows => (s, { out := memoryReport s.machine start rows })
  | .poke address value =>
    ({ s with machine := s.machine.poke address value },
      .line ("[" ++ hexWord address.toWord ++ "] <- " ++ hexByte value))
  | .setBreak address =>
    ({ s with breakpoints := s.breakpoints.insert address },
      .line ("break at " ++ hexWord address.toWord))
  | .removeBreak address =>
    ({ s with breakpoints := s.breakpoints.remove address },
      .line ((if s.breakpoints.contains address then "removed " else "no breakpoint at ")
        ++ hexWord address.toWord))
  | .clearBreaks => ({ s with breakpoints := [] }, .line "all breakpoints removed")
  | .listBreaks => (s, { out := s.breakpointReport })
  | .trace count => (s, { out := traceReport s.machine count })
  | .disassemble start count =>
    let first := match start with
      | some a => a.toWord
      | none => s.machine.pc
    (s, { out := listingReport s.machine first count })
  | .screen => (s, { out := screenReport s.machine })
  | .key key down =>
    ({ s with machine := s.machine.withKey key.val down },
      .line ("Key " ++ hex 1 key.val ++ (if down then " down" else " up")))
  | .stack => (s, { out := stackReport s.machine })
  | .showSpeed => (s, { out := s.speedReport })
  | .setSpeed stepsPerFrame =>
    let after := { s with stepsPerFrame := stepsPerFrame }
    (after, { out := after.speedReport })
  | .showDialect => (s, { out := dialectReport s.machine.dialect })
  | .toggle variation =>
    let dialect := s.machine.dialect.toggle variation
    ({ s with machine := { s.machine with dialect := dialect } },
      { out := dialectReport dialect })
  | .reset => s.reload
  | .sleep milliseconds => ({ s with clock := s.clock + milliseconds * 1000000 }, {})
  | .load format path => s.loadPath files format path

/-- What is written when a line is expected. -/
def prompt : Reply := { out := "\n> " }

/-- Answer lines until one asks to leave or there are no more. -/
def converse (files : Files) : List (List Char) → Session → Reply → Session × Reply
  | [], s, reply => (s, reply ++ prompt)
  | line :: rest, s, reply =>
    let reply := reply ++ prompt
    match Command.ofLine line with
    | .quit => (s, reply)
    | command =>
      let (s, answer) := s.perform files command
      converse files rest s (reply ++ answer)

end Session

/-! ### Beginning and end -/

/-- How a command line begins. -/
inductive Startup where
  /-- The program ends at once with an exit code. -/
  | ends (code : Nat) (reply : Reply)
  /-- A session begins. -/
  | opens (session : Session) (reply : Reply)

/-- What a session begins with. -/
def banner : String := asLines ["CHIP-8 VM (CLI)", "Type 'help' for commands.", ""]

/-- Begin a session with options and a program. -/
def Startup.ofProgram (o : Options) (random : RandomSource) (reading : Reading) : Startup :=
  let outcome := (Machine.powerOn o.dialect o.traceLimit random).load reading.bytes
  let log := reading.log ++ noticeLog outcome.notices
  match outcome.fault? with
  | some _ => .ends 1 { log := log ++ asLine "[chip8] ROM too large for the program area" }
  | none =>
    .opens
      { machine := outcome.machine, rom := reading.bytes, stepsPerFrame := o.stepsPerFrame }
      { out := banner ++ registersReport outcome.machine, log := log }

/-- Begin a session with the arguments of a command line. -/
def Startup.ofArguments (files : Files) (random : RandomSource) (arguments : List String) :
    Startup :=
  match Options.parse {} arguments with
  | (_, some complaint) => .ends 2 { log := asLine complaint.message ++ Options.usage }
  | (o, none) =>
    if o.help then .ends 0 { out := Options.usage }
    else
      let reading := readProgram files o.format o.romPath
      if reading.ok then .ofProgram o random reading
      else .ends 1 { log := reading.log }

/-- Everything that a run of the debugger produces. -/
structure Transcript where
  /-- The exit code. -/
  code : Nat
  /-- What was written. -/
  reply : Reply
  /-- The time that was slept, in nanoseconds. -/
  clock : Nat

/-- The debugger from its command line to the end of its input. -/
def Transcript.of (files : Files) (random : RandomSource) (arguments : List String)
    (input : List Char) : Transcript :=
  match Startup.ofArguments files random arguments with
  | .ends code reply => { code := code, reply := reply, clock := 0 }
  | .opens session reply =>
    let (session, reply) := session.converse files (lines input) reply
    { code := 0, reply := reply, clock := session.clock }

end Chip8
