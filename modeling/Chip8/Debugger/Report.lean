import Chip8.Instruction.Listing
import Chip8.Machine
import Chip8.Text

namespace Chip8

/-!
# What the debugger shows

Each report is a text about a machine and changes nothing.

* `registersReport` — all registers, timers and counters, and the next instruction.
* `memoryReport`, `listingReport`, `screenReport`, `stackReport`, `traceReport` — the other
  parts of a machine.
-/

/-- A text filled up with blanks on the right. -/
def padRight (width : Nat) (text : String) : String :=
  text ++ String.ofList (List.replicate (width - text.length) ' ')

/-- A condition as a digit. -/
def conditionDigit (condition : Bool) : String := if condition then "1" else "0"

/-- The instruction at an address, with the address and its word. -/
def instructionReport (m : Machine) (address : UInt16) : String :=
  let word := m.fetch address
  hexWord address ++ ":  " ++ hexWord word ++ "   " ++ listing word

/-- A register with its name, and a gap or the end of the line after it. -/
def registerReport (m : Machine) (x : Register) : String :=
  "V" ++ hex 1 x.val ++ "=" ++ hexByte (m.registers.read x)
    ++ (if x.val % 8 = 7 then "\n" else "  ")

/-- The registers, the timers, the counters and the next instruction, and the fault if one
stopped the machine. -/
def registersReport (m : Machine) : String :=
  "PC=" ++ hexWord m.pc ++ "  I=" ++ hexWord m.index ++ "  SP=" ++ hex 2 m.calls.depth
    ++ "  DT=" ++ hexByte m.delay ++ "  ST=" ++ hexByte m.sound
    ++ "  state=" ++ m.activity.phase.label ++ "  cycles=" ++ toString m.cycles
    ++ asLine ("  frames=" ++ toString m.frames)
    ++ String.join ((List.finRange 16).map (registerReport m))
    ++ asLine ("next: " ++ instructionReport m m.pc)
    ++ (match m.fault? with
        | some fault => asLine ("* " ++ fault.text)
        | none => "")

/-- Sixteen bytes of memory after their address. -/
def memoryRow (m : Machine) (start : Nat) : String :=
  let address := Address.wrap start
  let bytes := m.memory.readFrom address.val 16
  asLine (hexWord address.toWord ++ ": " ++ String.join (bytes.map fun b => hexByte b ++ " "))

/-- Rows of memory. -/
def memoryReport (m : Machine) (start : Address) (rows : Nat) : String :=
  String.join ((List.range rows).map fun r => memoryRow m (start.val + 16 * r))

/-- The addresses of instructions one after another. -/
def addressesFrom (start : UInt16) (count : Nat) : List UInt16 :=
  (List.range count).map fun k => if k = 0 then start else addressAfter start (2 * k)

/-- Instructions one after another, the one at the program counter marked. -/
def listingReport (m : Machine) (start : UInt16) (count : Nat) : String :=
  asLines ((addressesFrom start count).map fun address =>
    (if address = m.pc then "> " else "  ") ++ instructionReport m address)

/-- The display in a frame. -/
def screenReport (m : Machine) : String :=
  let edge := asLine ("+" ++ String.ofList (List.replicate Display.width '-') ++ "+")
  let row (y : Nat) : String :=
    let pixel (x : Nat) : Char := if m.display.lit x y then '#' else ' '
    asLine ("|" ++ String.ofList ((List.range Display.width).map pixel) ++ "|")
  edge ++ String.join ((List.range Display.height).map row) ++ edge

/-- The return addresses, newest first. -/
def stackReport (m : Machine) : String :=
  if m.calls.isEmpty then asLine "(stack empty)"
  else
    asLines (m.calls.live.zipIdx.reverse.map fun (address, i) =>
      "  [" ++ toString i ++ "] " ++ hexWord address)

/-- A byte that was moved. -/
def transferReport (e : Transfer) : String :=
  asLine ("    " ++ e.direction.label ++ " [" ++ hexWord e.address.toWord ++ "] = "
    ++ hexByte e.data ++ "  " ++ e.purpose.label)

/-- An executed instruction and the bytes it moved. -/
def entryReport (f : TraceEntry) : String :=
  asLine (toString f.cycle ++ "  " ++ hexWord f.pc ++ "  " ++ hexWord f.word ++ "  "
      ++ padRight 18 (listing f.word) ++ " I=" ++ hexWord f.index ++ " SP=" ++ hex 2 f.depth
      ++ " VF=" ++ hexByte (f.registers.read Register.flag) ++ "  " ++ f.phase.label
      ++ "  events:" ++ toString f.traffic.length)
    ++ String.join (f.traffic.map transferReport)

/-- The newest entries of the timeline. -/
def traceReport (m : Machine) (count : Nat) : String :=
  if m.timeline.isEmpty then asLine "(no trace yet)"
  else String.join ((m.timeline.last count).map entryReport)

/-- The points of a dialect. -/
def dialectReport (d : Dialect) : String :=
  asLine (" ".intercalate
    (Variation.all.map fun v => v.name ++ "=" ++ conditionDigit (d.has v)))

end Chip8
