namespace Chip8

/-!
# Random bytes

A source of random bytes is an endless stream together with the number of bytes taken from
it so far.  The machine looks at the next byte and moves on; nothing else is random.

* `RandomSource.next`, `RandomSource.advance` — the next byte, and the source without it.
* `RandomSource.cycling` — given bytes over and over.
* `RandomSource.seeded` — a stream that looks random, the same one for the same seed.
-/

/-- An endless stream of bytes, some of which have been taken. -/
structure RandomSource where
  /-- The whole stream. -/
  stream : Nat → UInt8
  /-- How many bytes have been taken. -/
  taken : Nat

namespace RandomSource

/-- The next byte. -/
def next (r : RandomSource) : UInt8 := r.stream r.taken

/-- The source after its next byte has been taken. -/
def advance (r : RandomSource) : RandomSource := { r with taken := r.taken + 1 }

/-- The source of which nothing has been taken and which repeats given bytes; without any
it repeats zero. -/
def cycling (bytes : Array UInt8) : RandomSource where
  stream n := bytes[n % bytes.size]?.getD 0
  taken := 0

/-- Spread the bits of a number over all of its places. -/
def scatter (n : UInt64) : UInt64 :=
  let n := (n ^^^ (n >>> 30)) * 0xBF58476D1CE4E5B9
  let n := (n ^^^ (n >>> 27)) * 0x94D049BB133111EB
  n ^^^ (n >>> 31)

/-- The source that scatters the multiples of an odd constant, counted from a seed. -/
def seeded (seed : UInt64) : RandomSource where
  stream n := (scatter (seed + UInt64.ofNat (n + 1) * 0x9E3779B97F4A7C15) >>> 56).toUInt8
  taken := 0

instance : Inhabited RandomSource := ⟨seeded 0⟩

end RandomSource

end Chip8
