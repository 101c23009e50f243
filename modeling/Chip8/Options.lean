import Chip8.Machine.Dialect
import Chip8.Rom.Files
import Chip8.Text.Numeral

namespace Chip8

/-!
# Options

What the command line asks for.  Arguments are taken from left to right; each either sets
something or is a complaint, and after a complaint nothing more is looked at.

* `Options.parse` — the options after a list of arguments, and the complaint, if any.
* `Options.usage` — the help on the command line.
* `clampSteps` — a number of steps per frame brought into its range.
-/

/-- What was asked for. -/
structure Options where
  /-- The program file; without one the demo is run. -/
  romPath : String := ""
  /-- How the program file is to be understood. -/
  format : RomFormat := .binary
  /-- Steps in a frame. -/
  stepsPerFrame : Nat := 10
  /-- How disputed instructions are read. -/
  dialect : Dialect := {}
  /-- The size of a pixel on the screen. -/
  scale : Int := 10
  /-- How many instructions the timeline keeps. -/
  traceLimit : Nat := 4096
  /-- Whether only help is wanted. -/
  help : Bool := false
  deriving DecidableEq, Repr, Inhabited

/-- The largest number of steps in a frame. -/
def maxStepsPerFrame : Nat := 10000

/-- The nearest number of steps in a frame that is allowed. -/
def clampSteps (requested : Int) : Nat :=
  if requested < 1 then 1
  else if maxStepsPerFrame < requested then maxStepsPerFrame
  else requested.toNat

/-- A setting whose argument is a number. -/
inductive Setting where
  | stepsPerFrame | scale | traceLimit
  deriving DecidableEq, Repr

namespace Setting

/-- All settings. -/
def all : List Setting := [stepsPerFrame, scale, traceLimit]

/-- The flag of a setting. -/
def flag : Setting → String
  | stepsPerFrame => "--ipf"
  | scale => "--scale"
  | traceLimit => "--trace"

/-- The setting that a flag stands for. -/
def ofFlag? (argument : String) : Option Setting := all.find? fun s => s.flag == argument

@[simp] theorem ofFlag?_flag (s : Setting) : ofFlag? s.flag = some s := by
  cases s <;> decide

/-- Whether a number may be given to a setting. -/
def accepts (s : Setting) (n : Int) : Bool :=
  match s with
  | stepsPerFrame => 1 ≤ n && n ≤ maxStepsPerFrame
  | scale => 1 ≤ n
  | traceLimit => 0 ≤ n

end Setting

/-- What is wrong with a command line. -/
inductive ArgumentComplaint where
  /-- A flag that needs a value is the last argument. -/
  | missingValue (flag : String)
  /-- The value of a flag is no number, or not one that it takes. -/
  | badValue (value flag : String)
  /-- No point of a dialect has this name. -/
  | unknownVariation (name : String)
  /-- No flag is written like this. -/
  | unknownOption (argument : String)
  deriving DecidableEq, Repr

/-- The text of a complaint about the command line. -/
def ArgumentComplaint.message : ArgumentComplaint → String
  | missingValue flag => "[args] " ++ flag ++ " requires a value"
  | badValue value flag => "[args] bad value '" ++ value ++ "' for " ++ flag
  | unknownVariation name =>
    "[args] unknown quirk '" ++ name ++ "' (" ++ ", ".intercalate (Variation.all.map (·.name)) ++ ")"
  | unknownOption argument => "[args] unknown option '" ++ argument ++ "'"

/-- The flag that changes a point of the dialect. -/
def variationFlag : String := "--quirk"

namespace Options

/-- Give a number to a setting.  The size of a pixel is kept in 32 bits with a sign. -/
def assign (o : Options) (s : Setting) (n : Int) : Options :=
  match s with
  | .stepsPerFrame => { o with stepsPerFrame := n.toNat }
  | .scale => { o with scale := n.bmod 0x100000000 }
  | .traceLimit => { o with traceLimit := n.toNat }

/-- Give a value to a setting. -/
def assignText (o : Options) (s : Setting) (value : String) : Except ArgumentComplaint Options :=
  match signedNumber? value.toList with
  | some n => if s.accepts n then .ok (o.assign s n) else .error (.badValue value s.flag)
  | none => .error (.badValue value s.flag)

/-- Take the less common reading on the point with a name. -/
def enable (o : Options) (name : String) : Except ArgumentComplaint Options :=
  match Variation.ofName? name with
  | some v => .ok { o with dialect := o.dialect.enable v }
  | none => .error (.unknownVariation name)

/-- What an argument that stands alone asks for. -/
def plain (o : Options) (argument : String) : Except ArgumentComplaint Options :=
  if argument = "-h" ∨ argument = "--help" then .ok { o with help := true }
  else if argument = "--hex" then .ok { o with format := .hexText }
  else if argument.toList.head? = some '-' then .error (.unknownOption argument)
  else .ok { o with romPath := argument }

/-- What a flag takes from the value after it; `none` if the argument takes no value. -/
def valued? (argument : String) : Option (Options → String → Except ArgumentComplaint Options) :=
  match Setting.ofFlag? argument with
  | some s => some fun o value => o.assignText s value
  | none => if argument = variationFlag then some enable else none

/-- The options after a list of arguments, on top of given ones, and what was wrong, if
anything was. -/
def parse (o : Options) : List String → Options × Option ArgumentComplaint
  | [] => (o, none)
  | argument :: rest =>
    match valued? argument, rest with
    | some _, [] => (o, some (.missingValue argument))
    | some take, value :: rest =>
      match take o value with
      | .ok o => parse o rest
      | .error complaint => (o, some complaint)
    | none, rest =>
      match o.plain argument with
      | .ok o => parse o rest
      | .error complaint => (o, some complaint)

end Options

/-- The help on the command line. -/
def Options.usage : String :=
  asLines
    ["usage: chip8vm_cli|chip8vm_gui [options] [ROM]",
     "  ROM               .ch8 image (or hex text with --hex); built-in demo if omitted",
     "  --hex             ROM file is whitespace-separated hex bytes",
     "  --ipf N           instructions per 60 Hz frame (default 10, at most 10000)",
     "  --quirk NAME      shift | jump | loadstore (repeatable)",
     "  --scale N         pixel scale for the GUI display (default 10)",
     "  --trace N         timeline ring size, 0 disables (default 4096)"]

end Chip8
