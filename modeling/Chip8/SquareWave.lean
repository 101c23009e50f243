namespace Chip8

/-!
# The tone

The tone is a square wave.  Its phase runs from zero to one; the wave is high in the first
half and low in the second.  Buffers of samples are filled one after another, and the phase
carries over from each to the next.

* `SquareWave.level`, `SquareWave.advance` — one sample, and the wave after it.
* `SquareWave.write` — samples put into a buffer, from some place on.
* `SquareWave.fill` — a buffer with its first samples replaced, as many as a length in bytes covers.
-/

/-- A square wave at some point of its period. -/
structure SquareWave where
  /-- How much of the period is over. -/
  phase : Float
  /-- How much of the period one sample takes. -/
  step : Float

namespace SquareWave

/-- How far the wave swings to either side. -/
def volume : Int := 3000

/-- The step of a tone of 440 hertz at 44100 samples a second. -/
def defaultStep : Float := 440.0 / 44100.0

/-- The tone at the start of its period. -/
def initial : SquareWave where
  phase := 0.0
  step := defaultStep

/-- The sample at this point. -/
def level (w : SquareWave) : Int := if w.phase < 0.5 then volume else -volume

/-- The wave one sample later; the phase starts over once the period is complete. -/
def advance (w : SquareWave) : SquareWave :=
  let phase := w.phase + w.step
  { w with phase := if 1.0 ≤ phase then phase - 1.0 else phase }

/-- Write a number of samples into a buffer from a place on, one after another. -/
def write : Nat → Nat → SquareWave → Array Int → Array Int × SquareWave
  | 0, _, w, buffer => (buffer, w)
  | count + 1, place, w, buffer =>
    write count (place + 1) w.advance (buffer.setIfInBounds place w.level)

/-- How many samples of two bytes a length in bytes has room for; a negative length has
room for none. -/
def sampleCount (length : Int) : Nat := (length.tdiv 2).toNat

/-- Fill the part of a buffer that a length in bytes covers; the rest stays. -/
def fill (w : SquareWave) (length : Int) (buffer : List Int) : List Int × SquareWave :=
  let (samples, w) := write (sampleCount length) 0 w buffer.toArray
  (samples.toList, w)

end SquareWave

end Chip8
