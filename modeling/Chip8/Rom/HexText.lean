import Chip8.Hex
import Chip8.Text

namespace Chip8

/-!
# Hex text

A program can be written down as text: bytes in base sixteen, between blanks or commas,
with comments from `#`, `;` or `//` to the end of the line.  Underscores may stand anywhere
in a piece and mean nothing; a mark `0x` may stand before it.  A piece of one or two digits
is a byte, and a longer one of even length is several.

* `HexText.pieces` — the pieces of a text, each with the number of its line.
* `HexText.bytesOf` — the bytes that a piece stands for, or what is wrong with it.
* `HexText.read` — the bytes up to the first piece that is wrong.
-/

namespace HexText

/-- What is wrong with a text. -/
inductive Complaint where
  /-- A piece holds something other than digits. -/
  | notHex (piece : List Char) (line : Nat)
  /-- A piece of more than two digits has an odd number of them. -/
  | outOfRange (piece : List Char) (line : Nat)
  /-- There are no bytes. -/
  | noBytes
  deriving DecidableEq, Repr

/-- The text of a complaint about the text from a place. -/
def Complaint.message (origin : String) : Complaint → String
  | notHex piece line =>
    "[loadhex] non-hex token '" ++ String.ofList piece ++ "' at " ++ origin ++ ":" ++ toString line
  | outOfRange piece line =>
    "[loadhex] byte out of range '" ++ String.ofList piece ++ "' at " ++ origin ++ ":"
      ++ toString line
  | noBytes => "[loadhex] no bytes read from " ++ origin

/-- What one piece has wrong with it. -/
inductive Flaw where
  | notHex | outOfRange
  deriving DecidableEq, Repr

/-- A line up to its comment. -/
def uncommented : List Char → List Char
  | [] => []
  | c :: rest =>
    if c = '#' ∨ c = ';' ∨ (c = '/' ∧ rest.head? = some '/') then []
    else c :: uncommented rest

/-- Blanks and commas keep pieces apart. -/
def isGap (c : Char) : Bool := isBlank c || c == ','

/-- A piece without the mark of its base; a mark with nothing after it is none. -/
def unmarked (piece : List Char) : List Char :=
  match piece with
  | '0' :: x :: d :: rest => if x = 'x' ∨ x = 'X' then d :: rest else piece
  | _ => piece

/-- A piece without its underscores and without the mark of its base. -/
def cleaned (piece : List Char) : List Char := unmarked (piece.filter (· != '_'))

/-- The pieces of one line. -/
def linePieces (line : List Char) : List (List Char) :=
  ((words isGap (uncommented line)).map cleaned).filter fun piece => !piece.isEmpty

/-- The pieces of a text, each with the number of its line; lines count from one. -/
def pieces (text : List Char) : List (List Char × Nat) :=
  ((lines text).zipIdx 1).flatMap fun (line, number) =>
    (linePieces line).map fun piece => (piece, number)

/-- The value of a digit, zero for anything else. -/
def digit (c : Char) : Nat := (hexValue? c).getD 0

/-- The bytes of an even number of digits. -/
def pairs : List Char → List UInt8
  | high :: low :: rest => UInt8.ofNat (digit high * 16 + digit low) :: pairs rest
  | _ => []

/-- The bytes that a piece stands for, or what is wrong with it. -/
def bytesOf (piece : List Char) : Except Flaw (List UInt8) :=
  if !piece.all isHexDigit then .error .notHex
  else
    match piece with
    | [d] => .ok [UInt8.ofNat (digit d)]
    | _ => if piece.length % 2 = 0 then .ok (pairs piece) else .error .outOfRange

/-- The bytes of pieces up to the first one that is wrong, and what is wrong with it. -/
def collect : List (List Char × Nat) → List UInt8 × Option Complaint
  | [] => ([], none)
  | (piece, line) :: rest =>
    match bytesOf piece with
    | .ok bytes =>
      let (more, complaint) := collect rest
      (bytes ++ more, complaint)
    | .error .notHex => ([], some (.notHex piece line))
    | .error .outOfRange => ([], some (.outOfRange piece line))

/-- The bytes of a text up to the first piece that is wrong, and what is wrong; a text
without any bytes is wrong as well. -/
def read (text : List Char) : List UInt8 × Option Complaint :=
  match collect (pieces text) with
  | ([], none) => ([], some .noBytes)
  | result => result

end HexText

end Chip8
