import Chip8.Console
import Chip8.Debugger.Command
import Chip8.Debugger.Report
import Chip8.Debugger.Run
import Chip8.Debugger.Session
import Chip8.Demo
import Chip8.Fault
import Chip8.FrameClock
import Chip8.Hex
import Chip8.Instruction
import Chip8.Instruction.Form
import Chip8.Instruction.Listing
import Chip8.Machine
import Chip8.Machine.Activity
import Chip8.Machine.Bank
import Chip8.Machine.CallStack
import Chip8.Machine.Control
import Chip8.Machine.Dialect
import Chip8.Machine.Display
import Chip8.Machine.Execution
import Chip8.Machine.Operation
import Chip8.Machine.RandomSource
import Chip8.Machine.Step
import Chip8.Machine.Timeline
import Chip8.Main
import Chip8.Options
import Chip8.Proofs.CallStack
import Chip8.Proofs.Checked.Execution
import Chip8.Proofs.Checked.Stores
import Chip8.Proofs.Decoding
import Chip8.Proofs.Dispatch
import Chip8.Proofs.Histories
import Chip8.Proofs.Range
import Chip8.Rom.Delivery
import Chip8.Rom.Files
import Chip8.Rom.HexText
import Chip8.Rom.Reader
import Chip8.SquareWave
import Chip8.Text
import Chip8.Text.Numeral
import Chip8.Word
import Chip8.Proofs.Checked.Bounds
import Chip8.Proofs.Control
import Chip8.Proofs.Coherence
import Chip8.Proofs.Faults
import Chip8.Proofs.CallReturn
import Chip8.Proofs.Loading
import Chip8.Proofs.Tracing
import Chip8.Proofs.Log
import Chip8.Proofs.KeyWait
import Chip8.Proofs.Timers
import Chip8.Proofs.Partition
import Chip8.Proofs.Accounting
import Chip8.Proofs.DeadState
import Chip8.Proofs.Dialects
import Chip8.Proofs.HexText.Digits
import Chip8.Proofs.HexText.Grammar
import Chip8.Proofs.HexText.Layout
import Chip8.Proofs.Numerals
import Chip8.Proofs.Options
import Chip8.Proofs.Pacing
import Chip8.Proofs.Sessions
import Chip8.Proofs.KeptProgram
import Chip8.Proofs.Breakpoints
import Chip8.Proofs.RealTime
import Chip8.Proofs.Drawing
import Chip8.Proofs.Demo
import Chip8.Proofs.Footprints
import Chip8.Proofs.Consoles
import Chip8.Proofs.Draws
import Chip8.Proofs.ControlFlow
import Chip8.Proofs.Arithmetic
import Chip8.Proofs.Effects
import Chip8.Proofs.SavedRegisters
import Chip8.Proofs.Lockstep
import Chip8.Proofs.RandomBytes
import Chip8.Proofs.CommandLine
import Chip8.Proofs.Parity
import Chip8.Proofs.Tone
import Chip8.Proofs.Chunks
import Chip8.Proofs.Assembly
