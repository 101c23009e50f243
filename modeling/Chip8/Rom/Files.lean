import Chip8.Demo
import Chip8.Rom.HexText
import Chip8.Rom.Reader

namespace Chip8

/-!
# Program files

A program comes from a file, either as it is or as hex text, and in place of a file without
a name comes the demo.

* `Files.open?` — what comes from the file that a path leads to.
* `readBinary`, `readHexText` — the bytes of a file, or a complaint.
* `readProgram` — the same for a path that may be empty.
-/

/-- The files of a directory: what comes from each name that can be opened. -/
abbrev Files := String → Option Delivery

/-- The name that a path stands for: it ends at the first zero byte. -/
def Files.nameOf (path : String) : String :=
  String.ofList (path.toList.takeWhile (· != '\x00'))

/-- What comes from the file that a path leads to; an empty name leads nowhere. -/
def Files.open? (files : Files) (path : String) : Option Delivery :=
  let name := nameOf path
  if name.isEmpty then none else files name

/-- A path with something under it is not empty. -/
theorem Files.isEmpty_of_open? {files : Files} {path : String} {delivery : Delivery}
    (h : files.open? path = some delivery) : path.isEmpty = false := by
  rw [← Bool.not_eq_true, String.isEmpty_iff]
  rintro rfl
  cases h

/-- How the bytes of a file are to be understood. -/
inductive RomFormat where
  /-- The bytes are the program. -/
  | binary
  /-- The bytes are hex text. -/
  | hexText
  deriving DecidableEq, Repr, Inhabited

/-- Why a file cannot be read. -/
inductive FileComplaint where
  /-- There is nothing under its name. -/
  | cannotOpen (format : RomFormat) (path : String)
  /-- Reading it failed. -/
  | readError (path : String)
  /-- Its text is wrong. -/
  | badText (complaint : HexText.Complaint) (origin : String)
  deriving DecidableEq, Repr

/-- The word for reading a file in a format, which is also the name of the command. -/
def RomFormat.command : RomFormat → String
  | binary => "loadbin"
  | hexText => "loadhex"

/-- The text of a complaint about a file. -/
def FileComplaint.message : FileComplaint → String
  | cannotOpen format path => "[" ++ format.command ++ "] cannot open '" ++ path ++ "'"
  | readError path => "[" ++ RomFormat.binary.command ++ "] read error on '" ++ path ++ "'"
  | badText complaint origin => complaint.message origin

/-- What reading leaves in a buffer, and the complaint if it failed. -/
structure Reading where
  /-- The bytes in the buffer afterwards. -/
  bytes : List UInt8
  /-- What went wrong, if anything. -/
  complaint? : Option FileComplaint := none
  deriving DecidableEq, Repr

namespace Reading

/-- Whether reading succeeded. -/
def ok (r : Reading) : Bool := r.complaint?.isNone

/-- The bytes, if reading succeeded. -/
def bytes? (r : Reading) : Option (List UInt8) := if r.ok then some r.bytes else none

/-- The complaint as a line of text; nothing if there is none. -/
def log (r : Reading) : String :=
  match r.complaint? with
  | some c => asLine c.message
  | none => ""

end Reading

/-- The characters of bytes. -/
def charsOfBytes (bytes : List UInt8) : List Char := bytes.map fun b => Char.ofNat b.toNat

/-- Read hex text that comes from a place. -/
def readText (text : List Char) (origin : String) : Reading :=
  let (bytes, complaint) := HexText.read text
  { bytes := bytes, complaint? := complaint.map fun c => .badText c origin }

/-- Read a file as it is, chunk by chunk.  A file that cannot be opened leaves the buffer alone;
any other empties it first, and one that cannot be read to its end empties it again. -/
def readBinary (files : Files) (path : String) (buffer : List UInt8) : Reading :=
  match files.open? path with
  | none => { bytes := buffer, complaint? := some (.cannotOpen .binary path) }
  | some delivery =>
    let (bytes, last) := ({ rest := delivery } : Reader).drain []
    if last.broken then { bytes := [], complaint? := some (.readError path) }
    else { bytes := bytes }

/-- Read a file as hex text.  A file that cannot be opened leaves the buffer alone; from one
that cannot be read to its end, what came is taken. -/
def readHexText (files : Files) (path : String) (buffer : List UInt8) : Reading :=
  match files.open? path with
  | none => { bytes := buffer, complaint? := some (.cannotOpen .hexText path) }
  | some delivery => readText (charsOfBytes delivery.received) path

/-- Read a file in a format. -/
def RomFormat.read (format : RomFormat) (files : Files) (path : String) (buffer : List UInt8) :
    Reading :=
  match format with
  | .binary => readBinary files path buffer
  | .hexText => readHexText files path buffer

/-- Read a program: the demo if the path is empty, and a file otherwise. -/
def readProgram (files : Files) (format : RomFormat) (path : String) : Reading :=
  if path.isEmpty then { bytes := Demo.program } else format.read files path []

end Chip8
