import Chip8.FrameClock
import Chip8.Machine.Step

namespace Chip8

/-!
# Running under breakpoints

A run takes a machine through steps or frames until enough of them are done, a fault stops
the machine, or the program counter has come to a breakpoint.

* `runSteps` — steps; a breakpoint stops a run before its instruction, though not before
  the first one.
* `runFrames` — frames; breakpoints are looked at between them only.
* `runPaced` — frames as they become due on a clock that moves only by sleeping.
-/

/-- Addresses at which a run stops, each of them once and in order. -/
abbrev Breakpoints := List Address

namespace Breakpoints

/-- Whether the program counter is at a breakpoint. -/
def stopAt (b : Breakpoints) (pc : UInt16) : Bool := b.any fun a => a.toWord == pc

/-- One breakpoint more. -/
def insert (b : Breakpoints) (address : Address) : Breakpoints :=
  match b with
  | [] => [address]
  | first :: rest =>
    if address < first then address :: first :: rest
    else if address = first then first :: rest
    else first :: insert rest address

/-- One breakpoint less. -/
def remove (b : Breakpoints) (address : Address) : Breakpoints := b.filter (· != address)

end Breakpoints

/-- Why a run ended. -/
inductive Stop where
  /-- Enough was done. -/
  | finished
  /-- The last step or frame reported a fault. -/
  | fault (fault : Fault)
  /-- The program counter is at a breakpoint. -/
  | breakpoint
  deriving DecidableEq

/-- What a run leaves behind. -/
structure Run where
  /-- The machine. -/
  machine : Machine
  /-- Why the run ended. -/
  stop : Stop := .finished
  /-- What was announced by the last step or frame; those before it announced nothing. -/
  notices : List Notice := []

/-- Take steps, at most a number of them, unless the machine has halted. -/
def runSteps (breaks : Breakpoints) : Nat → Machine → Run
  | 0, m => { machine := m }
  | count + 1, m =>
    if m.isHalted then { machine := m }
    else
      let o := m.step
      match o.fault? with
      | some fault => { machine := o.machine, stop := .fault fault, notices := o.notices }
      | none =>
        if count ≠ 0 ∧ breaks.stopAt o.machine.pc then
          { machine := o.machine, stop := .breakpoint }
        else runSteps breaks count o.machine

/-- Run frames, at most a number of them. -/
def runFrames (breaks : Breakpoints) (stepsPerFrame : Nat) : Nat → Machine → Run
  | 0, m => { machine := m }
  | count + 1, m =>
    let o := m.runFrame stepsPerFrame
    match o.fault? with
    | some fault => { machine := o.machine, stop := .fault fault, notices := o.notices }
    | none =>
      if breaks.stopAt o.machine.pc then { machine := o.machine, stop := .breakpoint }
      else runFrames breaks stepsPerFrame count o.machine

/-- A run, and the time on the clock after it. -/
structure PacedRun where
  /-- What the run leaves behind. -/
  run : Run
  /-- The time after it. -/
  clock : Nat

/-- Rounds of taking the frames that are due and sleeping until the next one is, until a
machine has completed a number of frames. -/
def pacedRounds (breaks : Breakpoints) (stepsPerFrame goal : Nat) :
    Nat → FrameClock → Nat → Machine → PacedRun
  | 0, _, clock, m => { run := { machine := m }, clock := clock }
  | rounds + 1, pace, clock, m =>
    if goal ≤ m.frames then { run := { machine := m }, clock := clock }
    else
      let (due, pace) := pace.take clock
      let r := runFrames breaks stepsPerFrame due m
      if r.stop = .finished then
        pacedRounds breaks stepsPerFrame goal rounds pace (clock + pace.untilDue clock)
          r.machine
      else { run := r, clock := clock }

/-- Run a number of frames in time from a time on.  In the first round nothing is due yet,
and every later one finds a frame due, so there are enough rounds. -/
def runPaced (breaks : Breakpoints) (stepsPerFrame count clock : Nat) (m : Machine) :
    PacedRun :=
  let pace := FrameClock.start FrameClock.defaultRate FrameClock.defaultCap clock
  pacedRounds breaks stepsPerFrame (m.frames + count) (count + 2) pace clock m

end Chip8
