import Chip8.Machine.Dialect
import Chip8.Options
import Chip8.Rom.Files
import Chip8.Text.Numeral

namespace Chip8

/-!
# Commands of the debugger

A line typed at the debugger is a command word, in letters of either case, and operands.
Operands that a command does not look at are ignored; those it needs but does not find, or
cannot understand, are a reason to reject the line.

* `Command` — what can be asked of the debugger.
* `Rejection` — why a line is not understood; `Rejection.message` is what is answered.
* `Command.ofLine` — the command on a line.
-/

/-- Why a line is not understood. -/
inductive Rejection where
  /-- There is no such command. -/
  | unknownCommand
  /-- An operand that stands for an address does not begin with a number, or with one that
  is too large. -/
  | badAddress
  /-- The operands of a memory dump are missing. -/
  | dumpUsage
  /-- The operands of a poke are missing. -/
  | pokeUsage
  /-- The byte of a poke is no byte. -/
  | pokeByte
  /-- The address of a breakpoint is missing. -/
  | breakUsage
  /-- The key is missing. -/
  | keyUsage
  /-- There is no such key. -/
  | keyRange
  /-- There is no such point of the dialect. -/
  | variationUsage
  /-- The file is missing. -/
  | loadUsage (format : RomFormat)
  deriving DecidableEq, Repr

/-- The answer to a line that is not understood. -/
def Rejection.message : Rejection → String
  | unknownCommand => "Unknown command. Type 'help'."
  | badAddress => "bad argument (stoul)"
  | dumpUsage => "usage: m ADDR [ROWS]"
  | pokeUsage => "usage: w ADDR BYTE"
  | pokeByte => "usage: w ADDR BYTE (BYTE is 00..FF)"
  | breakUsage => "usage: b ADDR"
  | keyUsage => "usage: key K 0|1"
  | keyRange => "key must be 0..F"
  | variationUsage => "usage: quirk " ++ "|".intercalate (Variation.all.map (·.name))
  | loadUsage format => "usage: " ++ format.command ++ " <path>"

/-- What can be asked of the debugger. -/
inductive Command where
  /-- Nothing was typed. -/
  | blank
  /-- The line is not understood. -/
  | rejected (reason : Rejection)
  /-- Leave the debugger. -/
  | quit
  /-- List the commands. -/
  | help
  /-- Take one step. -/
  | step
  /-- Run frames. -/
  | frames (count : Nat)
  /-- Take steps, stopping before a breakpoint. -/
  | run (count : Nat)
  /-- Run frames as time passes, stopping after a frame that ends at a breakpoint. -/
  | go (seconds : Nat)
  /-- Show the registers. -/
  | registers
  /-- Show memory. -/
  | dump (start : Address) (rows : Nat)
  /-- Put a byte into memory. -/
  | poke (address : Address) (value : UInt8)
  /-- Set a breakpoint. -/
  | setBreak (address : Address)
  /-- Remove a breakpoint. -/
  | removeBreak (address : Address)
  /-- Remove all breakpoints. -/
  | clearBreaks
  /-- Show the breakpoints. -/
  | listBreaks
  /-- Show the newest entries of the timeline. -/
  | trace (count : Nat)
  /-- Show instructions, from the program counter on unless an address is given. -/
  | disassemble (start : Option Address) (count : Nat)
  /-- Show the display. -/
  | screen
  /-- Press or release a key. -/
  | key (key : Key) (down : Bool)
  /-- Show the call stack. -/
  | stack
  /-- Show the number of steps in a frame. -/
  | showSpeed
  /-- Change the number of steps in a frame. -/
  | setSpeed (stepsPerFrame : Nat)
  /-- Show the dialect. -/
  | showDialect
  /-- Read the instructions on a point of the dialect the other way. -/
  | toggle (variation : Variation)
  /-- Load the current program again. -/
  | reset
  /-- Let time pass. -/
  | sleep (milliseconds : Nat)
  /-- Load a program from a file. -/
  | load (format : RomFormat) (path : String)
  deriving DecidableEq, Repr

namespace Command

/-! ### Operands -/

/-- The number that an operand begins with, or a given number if there is no operand. -/
def numberOr (operand? : Option (List Char)) (default : Int) : Int :=
  match operand? with
  | some word => operandNumber word
  | none => default

/-- A positive number that an operand begins with, and a given number in its place if there
is no operand or its number is not positive. -/
def countOr (operand? : Option (List Char)) (default : Nat) : Nat :=
  let n := numberOr operand? default
  if 0 < n then n.toNat else default

/-- A command on the address that an operand stands for. -/
def onAddress (operand : List Char) (command : Address → Command) : Command :=
  match foldedAddress? operand with
  | some address => command address
  | none => rejected .badAddress

/-! ### Commands with operands -/

/-- A memory dump of eight rows unless another number is given. -/
def dumpOf : List (List Char) → Command
  | [] => rejected .dumpUsage
  | address :: rest => onAddress address fun a => dump a (countOr rest.head? 8)

/-- A poke; the byte is looked at before the address. -/
def pokeOf : List (List Char) → Command
  | address :: byte :: _ =>
    match hexNumber? byte 0xFF with
    | some value => onAddress address fun a => poke a (UInt8.ofNat value)
    | none => rejected .pokeByte
  | _ => rejected .pokeUsage

/-- A new breakpoint. -/
def setBreakOf : List (List Char) → Command
  | [] => rejected .breakUsage
  | address :: _ => onAddress address setBreak

/-- A breakpoint less, or none at all. -/
def removeBreakOf : List (List Char) → Command
  | [] => clearBreaks
  | address :: _ => onAddress address removeBreak

/-- A disassembly of sixteen instructions unless another number is given. -/
def disassembleOf : List (List Char) → Command
  | [] => disassemble none 16
  | address :: rest => onAddress address fun a => disassemble (some a) (countOr rest.head? 16)

/-- A key that goes down unless zero is given. -/
def keyOf : List (List Char) → Command
  | [] => rejected .keyUsage
  | word :: rest =>
    match hexNumber? word 15 with
    | some k => key (Fin.ofNat 16 k) (numberOr rest.head? 1 != 0)
    | none => rejected .keyRange

/-- Another number of steps in a frame; without a positive number it is shown. -/
def speedOf (operands : List (List Char)) : Command :=
  let n := numberOr operands.head? 0
  if n ≤ 0 then showSpeed else setSpeed (clampSteps n)

/-- The other reading on a point of the dialect; without a name the dialect is shown. -/
def toggleOf : List (List Char) → Command
  | [] => showDialect
  | name :: _ =>
    match Variation.ofName? (String.ofList name) with
    | some v => toggle v
    | none => rejected .variationUsage

/-- A program from a file. -/
def loadOf (format : RomFormat) : List (List Char) → Command
  | [] => rejected (.loadUsage format)
  | path :: _ => load format (String.ofList path)

/-- The command with a name and operands. -/
def ofWords (name : String) (operands : List (List Char)) : Command :=
  match name with
  | "q" | "quit" | "exit" => quit
  | "help" | "h" | "?" => help
  | "s" => step
  | "f" => frames (countOr operands.head? 1)
  | "r" => run (numberOr operands.head? 1).toNat
  | "g" => go (countOr operands.head? 10)
  | "p" => registers
  | "m" => dumpOf operands
  | "w" => pokeOf operands
  | "b" => setBreakOf operands
  | "bc" => removeBreakOf operands
  | "bl" => listBreaks
  | "t" => trace (countOr operands.head? 20)
  | "d" => disassembleOf operands
  | "screen" => screen
  | "key" => keyOf operands
  | "stack" => stack
  | "ipf" => speedOf operands
  | "quirk" => toggleOf operands
  | "reset" => reset
  | "sleep" => sleep (numberOr operands.head? 0).toNat
  | "loadbin" => loadOf .binary operands
  | "loadhex" => loadOf .hexText operands
  | _ => rejected .unknownCommand

/-- The command on a line. -/
def ofLine (line : List Char) : Command :=
  match words isBlank line with
  | [] => blank
  | name :: operands => ofWords (inLowerCase (String.ofList name)) operands

end Command

/-- The list of commands. -/
def helpText : String :=
  asLines
    ["Commands:",
     "  s                 execute one instruction",
     "  f [N]             run N frames (default 1): ipf instructions + one timer tick each",
     "  r N               run N instructions",
     "  g [SECONDS]       run frames in real time (60 Hz) until fault or timeout (default 10s);",
     "                    breakpoints are checked at frame boundaries only",
     "  p                 print registers",
     "  m ADDR [ROWS]     hex dump from ADDR (8 rows of 16 unless ROWS given)",
     "  w ADDR BYTE       poke BYTE into memory (hex operands, 12-bit address)",
     "  b ADDR            break when PC reaches ADDR",
     "  bl                list breakpoints with the instruction at each",
     "  bc [ADDR]         remove one breakpoint, or all of them",
     "  t [K]             last K timeline entries with bus events (default 20)",
     "  d [ADDR] [N]      disassemble N instructions from ADDR (default PC, 16)",
     "  screen            print the 64x32 display",
     "  key K 0|1         release/press hex key K",
     "  stack             print the call stack",
     "  ipf N             set instructions per frame",
     "  quirk NAME        toggle shift | jump | loadstore",
     "  reset             reload the current ROM",
     "  sleep MS          sleep for MS milliseconds",
     "  loadbin FILE      load a binary ROM at 0200",
     "  loadhex FILE      load a hex-text ROM at 0200",
     "  help              this text",
     "  quit              exit"]

end Chip8
