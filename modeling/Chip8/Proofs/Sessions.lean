import Chip8.Debugger.Session

namespace Chip8

/-!
# Sessions line by line

Lines are typed one after another, and for each of them the files may be other ones.  What a session
is at a prompt depends on the lines that were answered before it.

* `TypedLine` — a line, and the files that there are when it is answered.
* `Session.attend` — the session after some lines were typed.
* `Session.fst_converse` — the debugger answers lines in this way.
-/

/-- A line that is typed, and the files that there are when it is answered. -/
structure TypedLine where
  /-- The files. -/
  files : Files
  /-- The line. -/
  text : List Char

/-- What a line asks for. -/
def TypedLine.command (line : TypedLine) : Command := .ofLine line.text

namespace Session

/-- The lines that are answered: those before the first one that asks to leave. -/
def answered (lines : List TypedLine) : List TypedLine :=
  lines.takeWhile fun line => line.command ≠ .quit

/-- The session after some lines were typed. -/
def attend (s : Session) (lines : List TypedLine) : Session :=
  (answered lines).foldl (fun s line => (s.perform line.files line.command).1) s

/-- A line that does not ask to leave is answered, and then the lines after it are. -/
theorem attend_cons (s : Session) {line : TypedLine} (stays : line.command ≠ .quit)
    (lines : List TypedLine) :
    s.attend (line :: lines) = (s.perform line.files line.command).1.attend lines := by
  simp [attend, answered, stays]

/-- Nothing is answered from a line on that asks to leave. -/
theorem attend_of_quit (s : Session) {line : TypedLine} (leaves : line.command = .quit)
    (lines : List TypedLine) : s.attend (line :: lines) = s := by
  simp [attend, answered, leaves]

/-- The debugger answers lines in this way. -/
theorem fst_converse (files : Files) (lines : List (List Char)) (s : Session) (reply : Reply) :
    (converse files lines s reply).1 = s.attend (lines.map (TypedLine.mk files)) := by
  induction lines generalizing s reply with
  | nil => rfl
  | cons line lines ih =>
    rw [List.map_cons, converse]
    split
    · next quit =>
      have leaves : (TypedLine.mk files line).command = .quit := quit
      rw [attend_of_quit s leaves]
    · next other =>
      have stays : (TypedLine.mk files line).command ≠ .quit := other
      rw [attend_cons s stays]
      exact ih _ _

end Session

end Chip8
