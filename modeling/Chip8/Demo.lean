import Chip8.Instruction

namespace Chip8

/-!
# The demo program

The program that is run when no other is given.  It shows the sixteen glyphs in turn, each
for half a second and each announced by a short beep, and never ends.
-/

/-- The demo, instruction by instruction; it is laid out for the start of program memory. -/
def Demo.instructions : List Instruction :=
  [.clear,
   .setByte 0 0,            -- the digit to show
   .setByte 1 28,           -- its column
   .setByte 2 13,           -- its row
   .glyph 0,                -- 208: every digit comes back here
   .draw 1 2 5,
   .setByte 3 30,           -- half a second
   .setDelay 3,
   .setByte 4 4,            -- a short beep
   .setSound 4,
   .readDelay 3,            -- 214: wait here until the time is up
   .skipIfByte 3 0,
   .jump 0x214,
   .draw 1 2 5,             -- drawing again erases
   .addByte 0 1,
   .setByte 5 0x0F,
   .and 0 5,
   .jump 0x208]

/-- The bytes of the demo. -/
def Demo.program : List UInt8 :=
  Demo.instructions.flatMap fun i => bytesOfWord i.encode

@[simp] theorem Demo.length_program : Demo.program.length = 36 := by decide

end Chip8
