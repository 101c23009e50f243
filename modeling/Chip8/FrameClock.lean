namespace Chip8

/-!
# Pacing frames

A frame clock turns readings of the time into whole frames.  It holds the time at which the
next frame is due; asked at some time, it says how many frames have become due since it was
last asked, and what is left of a frame carries over.  A stall of more frames than a cap is
dropped instead of being made up for.  Times are in nanoseconds.

* `FrameClock.take` — the frames that are due, and the clock once they are taken.
* `FrameClock.untilDue` — how long it is until a frame is due.
-/

/-- A clock for frames. -/
structure FrameClock where
  /-- The length of a frame. -/
  period : Nat
  /-- The most frames that are taken at once. -/
  cap : Nat
  /-- When the next frame is due. -/
  deadline : Int
  deriving DecidableEq, Repr

namespace FrameClock

/-- Frames in a second unless another number is asked for. -/
def defaultRate : Nat := 60

/-- The most frames that are made up for after a stall, unless another number is asked
for. -/
def defaultCap : Int := 5

/-- The length of a frame when there are `rate` frames in a second; a rate of zero counts
as one. -/
def periodOfRate (rate : Nat) : Nat := 1000000000 / max 1 rate

/-- Count frames from a time on: the next one is due a period later. -/
def restart (c : FrameClock) (now : Int) : FrameClock :=
  { c with deadline := now + c.period }

/-- A clock that counts from a time on.  A cap below one counts as one. -/
def start (rate : Nat) (cap : Int) (now : Int) : FrameClock :=
  restart { period := periodOfRate rate, cap := (max 1 cap).toNat, deadline := now } now

/-- How many frames have become due before a time, the one at the deadline included. -/
def owed (c : FrameClock) (now : Int) : Nat :=
  if now < c.deadline then 0 else (now - c.deadline).toNat / c.period + 1

/-- The frames that are due at a time, at most the cap, and the clock once they are taken. -/
def take (c : FrameClock) (now : Int) : Nat × FrameClock :=
  let owed := c.owed now
  if c.cap < owed then (c.cap, c.restart now)
  else (owed, { c with deadline := c.deadline + c.period * owed })

/-- How long it is from a time until a frame is due. -/
def untilDue (c : FrameClock) (now : Int) : Nat := (c.deadline - now).toNat

end FrameClock

end Chip8
