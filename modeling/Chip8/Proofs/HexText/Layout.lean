import Chip8.Console
import Chip8.Debugger.Session
import Chip8.Proofs.Chunks
import Chip8.Proofs.HexText.Grammar
import Chip8.Proofs.Loading
import Chip8.Text.Numeral

namespace Chip8

/-!
# Layouts of hex text

The same bytes can be written as hex text in many ways.  A layout chooses how many bytes go to
each token, the case of the digits, the marks of the base, where underscores stand, what keeps the
tokens apart and what the comments say.  Here the layouts of some bytes are a relation between
bytes and texts, and whatever is laid out is read back.

* `HexText.IsToken` — one token for some bytes.
* `HexText.Spacing`, `HexText.Ending` — what may stand between tokens, and after the last one.
* `HexText.Renders`, `HexText.IsLayout` — the layouts of some bytes; there is always one
  (`HexText.exists_isLayout`).
* `HexText.Closes` — what a token must be followed by in order to end; spacing does it, and so
  does an ending.
* `HexText.Renders.denotesAll` — the pieces of a layout denote what was laid out.
* `hex_text_layouts_read_back` — from a layout of a program comes what comes from the program as
  it is, up to the machine it is loaded into.
-/

namespace HexText

/-! ### Layouts -/

/-- A token for some bytes: digits that denote them, perhaps after the mark of the base, with
underscores anywhere. -/
def IsToken (bytes : List UInt8) (token : List Char) : Prop :=
  ∃ mark digits, mark ∈ [] :: baseMarks ∧ Denotes digits bytes ∧
    token.filter (· != '_') = mark ++ digits

/-- What may stand between two tokens: newlines and separators, and before each newline a
comment. -/
inductive Spacing : List Char → Prop where
  /-- Nothing at all. -/
  | nil : Spacing []
  /-- One more separator or newline. -/
  | separator {c : Char} {rest : List Char} (keepsApart : c = '\n' ∨ c ∈ separators)
      (others : Spacing rest) : Spacing (c :: rest)
  /-- One more comment, up to the end of its line. -/
  | comment {mark body rest : List Char} (begins : mark ∈ commentMarks) (oneLine : '\n' ∉ body)
      (others : Spacing rest) : Spacing (mark ++ body ++ '\n' :: rest)

/-- What may stand after the last token: the same, and a comment on a line that is not ended. -/
inductive Ending : List Char → Prop where
  /-- No comment at the end. -/
  | spacing {space : List Char} (only : Spacing space) : Ending space
  /-- A comment at the end. -/
  | comment {space mark body : List Char} (before : Spacing space) (begins : mark ∈ commentMarks)
      (oneLine : '\n' ∉ body) : Ending (space ++ (mark ++ body))

/-- Tokens for some bytes, with spacing between any two of them. -/
inductive Renders : List UInt8 → List Char → Prop where
  /-- The last token and the end of the text. -/
  | last {block : List UInt8} {token ending : List Char} (first : IsToken block token)
      (ends : Ending ending) : Renders block (token ++ ending)
  /-- One more token before the others. -/
  | more {block bytes : List UInt8} {token space rest : List Char} (first : IsToken block token)
      (apart : Spacing space) (nonempty : space ≠ []) (others : Renders bytes rest) :
      Renders (block ++ bytes) (token ++ (space ++ rest))

/-- Layouts may begin with spacing. -/
def IsLayout (bytes : List UInt8) (text : List Char) : Prop :=
  ∃ space body, Spacing space ∧ Renders bytes body ∧ text = space ++ body

variable {bytes block : List UInt8} {token space text rest : List Char}

/-- There is a layout for any bytes: all in one token. -/
theorem exists_isLayout (nonempty : bytes ≠ []) : ∃ text, IsLayout bytes text := by
  obtain ⟨digits, pairs⟩ := exists_writesPairs bytes
  have present : digits ≠ [] := by
    rintro rfl
    cases pairs
    exact nonempty rfl
  have plain : digits.filter (· != '_') = digits := by
    rw [List.filter_eq_self]
    intro c mem
    have digit := pairs.good.1 c mem
    rw [bne_iff_ne]
    rintro rfl
    exact absurd digit (by decide)
  have token : IsToken bytes digits := ⟨[], digits, by decide, .pairs present pairs, plain⟩
  exact ⟨_, [], _, .nil, .last token (.spacing .nil), rfl⟩

/-! ### Pieces ahead -/

/-- The pieces of a text without the numbers of their lines. -/
def bare (text : List Char) : List (List Char) := (lines text).flatMap linePieces

theorem map_fst_pieces (text : List Char) : (pieces text).map Prod.fst = bare text := by
  rw [pieces, bare]
  -- the numbers may begin anywhere
  generalize lines text = ls, 1 = number
  induction ls generalizing number with
  | nil => rfl
  | cons line ls ih => simp [ih, Function.comp_def]

/-- The first line of a text, or what there is of it. -/
def lineAhead (text : List Char) : List Char := (lines text).headD []

/-- The first line gives its pieces, and then come those of the other lines. -/
theorem bare_eq (text : List Char) :
    bare text = linePieces (lineAhead text) ++ (lines text).tail.flatMap linePieces := by
  rw [bare, lineAhead]
  cases lines text <;> rfl

/-- Characters without a newline begin the first line of what comes after them. -/
theorem lineAhead_append (nonempty : token ≠ []) (inside : '\n' ∉ token) (rest : List Char) :
    lineAhead (token ++ rest) = token ++ lineAhead rest := by
  rw [lineAhead, lines_append nonempty inside]
  rfl

/-- They change the first line only. -/
theorem bare_append (nonempty : token ≠ []) (inside : '\n' ∉ token) (rest : List Char) :
    bare (token ++ rest) =
      linePieces (token ++ lineAhead rest) ++ (lines rest).tail.flatMap linePieces := by
  rw [bare, lines_append nonempty inside]
  rfl

/-- Whether a token ends before a text: the text gives nothing more on this line, or a gap. -/
def Closes (rest : List Char) : Prop :=
  ∀ c ∈ (uncommented (lineAhead rest)).head?, isGap c = true

/-! ### Spacing -/

theorem isGap_of_separator {c : Char} (h : c = '\n' ∨ c ∈ separators) : isGap c = true := by
  by_cases newline : c = '\n'
  · subst newline
    decide
  · rw [isGap_eq_contains newline, List.contains_iff_mem]
    exact h.resolve_left newline

/-- The marks of comments are not empty and stay on their line. -/
theorem commentMarks_inside {mark : List Char} (h : mark ∈ commentMarks) :
    mark ≠ [] ∧ '\n' ∉ mark := by
  revert mark
  decide

/-- So do whole comments. -/
theorem comment_inside {mark body : List Char} (h : mark ∈ commentMarks) (oneLine : '\n' ∉ body) :
    mark ++ body ≠ [] ∧ '\n' ∉ mark ++ body := by
  obtain ⟨nonempty, inside⟩ := commentMarks_inside h
  exact ⟨by simp [nonempty], by simp [inside, oneLine]⟩

/-- Nothing is read from a comment on. -/
theorem uncommented_comment {mark : List Char} (h : mark ∈ commentMarks) (body : List Char) :
    uncommented (mark ++ body) = [] := by
  simp only [commentMarks, List.mem_cons, List.not_mem_nil, or_false] at h
  rcases h with rfl | rfl | rfl <;> simp [uncommented]

/-- Neither are there any pieces. -/
theorem linePieces_comment {mark : List Char} (h : mark ∈ commentMarks) (body : List Char) :
    linePieces (mark ++ body) = [] := by
  rw [linePieces, uncommented_comment h]
  rfl

/-- A separator is not part of any piece. -/
theorem bare_separator {c : Char} (h : c = '\n' ∨ c ∈ separators) (rest : List Char) :
    bare (c :: rest) = bare rest := by
  by_cases newline : c = '\n'
  · subst newline
    rfl
  · have gap := isGap_of_separator h
    have plain : uncommented (c :: lineAhead rest) = c :: uncommented (lineAhead rest) := by
      rw [uncommented, if_neg]
      rintro (rfl | rfl | ⟨rfl, -⟩) <;> exact absurd gap (by decide)
    have first : linePieces (c :: lineAhead rest) = linePieces (lineAhead rest) := by
      rw [linePieces, plain, words_cons_of_gap _ gap]
      rfl
    have inside : '\n' ∉ [c] := by simpa using Ne.symm newline
    rw [← List.singleton_append, bare_append (by simp) inside, List.singleton_append, first,
      bare_eq rest]

/-- A text that begins with a separator or a newline closes. -/
theorem closes_separator {c : Char} (h : c = '\n' ∨ c ∈ separators) (rest : List Char) :
    Closes (c :: rest) := by
  intro d head
  by_cases newline : c = '\n'
  · subst newline
    cases head
  · have inside : '\n' ∉ [c] := by simpa using Ne.symm newline
    rw [← List.singleton_append, lineAhead_append (by simp) inside, List.singleton_append,
      uncommented] at head
    split at head
    · cases head
    · cases head
      exact isGap_of_separator h

/-- A text that begins with a comment closes. -/
theorem closes_comment {mark : List Char} (h : mark ∈ commentMarks) (rest : List Char) :
    Closes (mark ++ rest) := by
  obtain ⟨nonempty, inside⟩ := commentMarks_inside h
  rw [Closes, lineAhead_append nonempty inside, uncommented_comment h]
  simp

/-- Spacing adds no pieces. -/
theorem Spacing.bare_eq (h : Spacing space) (rest : List Char) :
    bare (space ++ rest) = bare rest := by
  induction h with
  | nil => rfl
  | separator keepsApart _ ih => rw [List.cons_append, bare_separator keepsApart, ih]
  | @comment mark body space begins oneLine _ ih =>
    have line : '\n' ∉ mark ++ body := (comment_inside begins oneLine).2
    have cut : bare (mark ++ body ++ '\n' :: (space ++ rest)) =
        linePieces (mark ++ body) ++ bare (space ++ rest) := by
      rw [bare, lines_append_newline _ _ line]
      rfl
    -- the comment is a line of its own, and there are no pieces on it
    rw [List.append_assoc, List.cons_append, cut, linePieces_comment begins, ih]
    rfl

/-- Spacing ends the token before it. -/
theorem Spacing.closes (h : Spacing space) (nonempty : space ≠ []) (rest : List Char) :
    Closes (space ++ rest) := by
  cases h with
  | nil => exact absurd rfl nonempty
  | separator keepsApart _ => exact closes_separator keepsApart _
  | comment begins _ _ =>
    rw [List.append_assoc, List.append_assoc]
    exact closes_comment begins _

/-- There are no pieces in an ending. -/
theorem Ending.bare_eq (h : Ending text) : bare text = [] := by
  cases h with
  | spacing only =>
    have empty := only.bare_eq []
    rwa [List.append_nil] at empty
  | @comment space mark body before begins oneLine =>
    obtain ⟨nonempty, line⟩ := comment_inside begins oneLine
    have last := bare_append nonempty line []
    rw [List.append_nil] at last
    rw [before.bare_eq, last, List.append_assoc, linePieces_comment begins]
    rfl

/-- An ending ends the token before it. -/
theorem Ending.closes (h : Ending text) : Closes text := by
  cases h with
  | spacing only =>
    by_cases empty : text = []
    · subst empty
      intro c head
      cases head
    · have closed := only.closes empty []
      rwa [List.append_nil] at closed
  | @comment space mark body before begins _ =>
    by_cases empty : space = []
    · subst empty
      exact closes_comment begins body
    · exact before.closes empty _

/-! ### Tokens -/

/-- A character that is neither a gap nor part of the mark of a comment. -/
def Ordinary (c : Char) : Prop := isGap c = false ∧ c ≠ '#' ∧ c ≠ ';' ∧ c ≠ '/'

instance (c : Char) : Decidable (Ordinary c) := inferInstanceAs (Decidable (_ ∧ _))

/-- Digits are ordinary. -/
theorem ordinary_of_isHexDigit {c : Char} (h : isHexDigit c = true) : Ordinary c := by
  have comma : c ≠ ',' := by
    rintro rfl
    cases h
  refine ⟨by simp [isGap, isBlank_of_isHexDigit h, comma], ?_, ?_, ?_⟩
  all_goals
    rintro rfl
    cases h

/-- So is everything in a token. -/
theorem IsToken.ordinary (h : IsToken bytes token) : ∀ c ∈ token, Ordinary c := by
  obtain ⟨mark, digits, marks, denotes, cut⟩ := h
  intro c mem
  by_cases underscore : c = '_'
  · subst underscore
    decide
  · -- everything but the underscores is in the mark or among the digits
    have kept : c ∈ mark ++ digits := by
      rw [← cut, List.mem_filter]
      exact ⟨mem, bne_iff_ne.mpr underscore⟩
    rcases List.mem_append.mp kept with inMark | inDigits
    · have all : ([] :: baseMarks).all (·.all fun c => decide (Ordinary c)) = true := by decide
      have marked := List.all_eq_true.mp (List.all_eq_true.mp all mark marks) c inMark
      exact of_decide_eq_true marked
    · exact ordinary_of_isHexDigit (denotes.good.1 c inDigits)

/-- What denotes bytes has no mark of its own. -/
theorem Denotes.unmarked_eq {digits : List Char} (h : Denotes digits bytes) :
    unmarked digits = digits := by
  have all := h.good.1
  match digits with
  | [] | [_] | [_, _] => simp [unmarked]
  | z :: x :: d :: rest =>
    have digit : isHexDigit x = true := all x (by simp)
    have second : ¬ (x = 'x' ∨ x = 'X') := by
      rintro (rfl | rfl) <;> exact absurd digit (by decide)
    by_cases zero : z = '0'
    · subst zero
      rw [unmarked, if_neg second]
    · simp [unmarked, zero]

/-- The mark of the base goes wherever it stands before something. -/
theorem unmarked_append {mark digits : List Char} (h : mark ∈ baseMarks) (nonempty : digits ≠ []) :
    unmarked (mark ++ digits) = digits := by
  obtain ⟨d, rest, rfl⟩ := List.exists_cons_of_ne_nil nonempty
  simp only [baseMarks, List.mem_cons, List.not_mem_nil, or_false] at h
  rcases h with rfl | rfl <;> simp [unmarked]

/-- A token is cleaned down to digits that denote its bytes. -/
theorem IsToken.denotes (h : IsToken bytes token) : Denotes (cleaned token) bytes := by
  obtain ⟨mark, digits, marks, denotes, cut⟩ := h
  have clean : cleaned token = digits := by
    rw [cleaned, cut]
    rcases List.mem_cons.mp marks with rfl | marks
    · exact denotes.unmarked_eq
    · exact unmarked_append marks denotes.piece_ne_nil
  rw [clean]
  exact denotes

theorem uncommented_append (ordinary : ∀ c ∈ token, Ordinary c) (rest : List Char) :
    uncommented (token ++ rest) = token ++ uncommented rest := by
  induction token with
  | nil => rfl
  | cons c token ih =>
    obtain ⟨-, hash, semicolon, slash⟩ := ordinary c (by simp)
    have later := ih fun d mem => ordinary d (List.mem_cons_of_mem c mem)
    rw [List.cons_append, uncommented, if_neg, later]
    · rfl
    · rintro (h | h | ⟨h, -⟩)
      · exact hash h
      · exact semicolon h
      · exact slash h

/-- A token before a text that closes is the first piece. -/
theorem IsToken.bare_append (h : IsToken bytes token) (closes : Closes rest) :
    bare (token ++ rest) = cleaned token :: bare rest := by
  have ordinary := h.ordinary
  have left : cleaned token ≠ [] := h.denotes.piece_ne_nil
  have nonempty : token ≠ [] := by
    rintro rfl
    exact left rfl
  have inside : '\n' ∉ token := by
    intro mem
    exact absurd (ordinary _ mem) (by decide)
  have word : words isGap (token ++ uncommented (lineAhead rest)) =
      token :: words isGap (uncommented (lineAhead rest)) :=
    words_append _ nonempty (fun c mem => (ordinary c mem).1) closes
  have line : linePieces (token ++ lineAhead rest) =
      cleaned token :: linePieces (lineAhead rest) := by
    rw [linePieces, uncommented_append ordinary, word]
    simp [linePieces, left]
  rw [HexText.bare_append nonempty inside, line, HexText.bare_eq rest]
  rfl

/-! ### Reading back -/

/-- The pieces of a rendering denote what was written. -/
theorem Renders.denotesAll (h : Renders bytes text) : DenotesAll (bare text) bytes := by
  -- by induction on the tokens: the first one is the first piece, and what stands after it ends it
  induction h with
  | last first ends =>
    rw [first.bare_append ends.closes, ends.bare_eq]
    have one := DenotesAll.cons first.denotes .nil
    rwa [List.append_nil] at one
  | more first apart nonempty _ ih =>
    rw [first.bare_append (apart.closes nonempty _), apart.bare_eq]
    exact .cons first.denotes ih

/-- A layout is read back. -/
theorem IsLayout.readText_eq (h : IsLayout bytes text) (nonempty : bytes ≠ []) (origin : String) :
    readText text origin = { bytes := bytes } := by
  obtain ⟨space, body, before, renders, rfl⟩ := h
  have all : DenotesAll ((pieces (space ++ body)).map Prod.fst) bytes := by
    rw [map_fst_pieces, before.bare_eq]
    exact renders.denotesAll
  rw [readText, read_of_denotesAll all nonempty]
  rfl

end HexText

/-! ### Loading -/

section Loading

variable {files : Files} (format : RomFormat) {path : String} {bytes : List UInt8}

/-- A console takes a program that is read and that fits. -/
theorem Console.load_of_reading {delivery : Delivery} (opened : files.open? path = some delivery)
    (reading : format.read files path [] = { bytes := bytes })
    (fits : bytes.length ≤ programCapacity) (c : Console) :
    c.load files format path =
      { console :=
          { machine := (c.machine.load bytes).machine
            rom := bytes
            status := .loaded bytes.length }
        ok := true
        log := noticeLog [.loaded bytes.length] } := by
  have program : Console.reading files format path = { bytes := bytes } := by
    rw [Console.reading_eq_readProgram, readProgram, Files.isEmpty_of_open? opened]
    exact reading
  rw [Console.load, program, Machine.load_of_fits c.machine fits]
  rfl

/-- So does a session. -/
theorem Session.loadPath_of_reading (reading : format.read files path [] = { bytes := bytes })
    (fits : bytes.length ≤ programCapacity) (s : Session) :
    (s.loadPath files format path).1 =
      { s with machine := (s.machine.load bytes).machine, rom := bytes } := by
  rw [Session.loadPath, reading, Session.loadBytes, Machine.load_of_fits s.machine fits]
  rfl

end Loading

open HexText in
/-- Hex text is read back from every layout.  For some bytes, at least one, and every text that
lays them out, reading the text gives these bytes without a complaint.  So a file with the text and
a file with the bytes as they are give the same, whatever was in the buffer; and if the bytes fit
into memory, a console and a session load them from either file, and have the same machine in the
same state afterwards. -/
theorem hex_text_layouts_read_back {bytes : List UInt8} (nonempty : bytes ≠ []) {text : List Char}
    (layout : IsLayout bytes text) :
    (∀ origin, readText text origin = { bytes := bytes }) ∧
    ∀ (files : Files) (textPath bytesPath : String) (fromText fromBytes : Delivery),
      files.open? textPath = some fromText → charsOfBytes fromText.received = text →
      files.open? bytesPath = some fromBytes → fromBytes.intact = true →
      fromBytes.received = bytes →
      (∀ buffer, readHexText files textPath buffer = { bytes := bytes } ∧
        readBinary files bytesPath buffer = { bytes := bytes }) ∧
      (bytes.length ≤ 3584 →
        (∀ c : Console,
          c.load files .hexText textPath = c.load files .binary bytesPath ∧
            (c.load files .hexText textPath).ok = true ∧
            (c.load files .hexText textPath).console.machine = (c.machine.load bytes).machine) ∧
        ∀ s : Session,
          (s.loadPath files .hexText textPath).1 = (s.loadPath files .binary bytesPath).1 ∧
            (s.loadPath files .hexText textPath).1.machine = (s.machine.load bytes).machine) := by
  refine ⟨layout.readText_eq nonempty, ?_⟩
  intro files textPath bytesPath fromText fromBytes opened content opened' intact content'
  have textReading (buffer : List UInt8) :
      readHexText files textPath buffer = { bytes := bytes } := by
    rw [readHexText, opened]
    show readText (charsOfBytes fromText.received) textPath = _
    rw [content, layout.readText_eq nonempty]
  have bytesReading (buffer : List UInt8) :
      readBinary files bytesPath buffer = { bytes := bytes } := by
    rw [readBinary_of_intact buffer opened' intact, content']
  refine ⟨fun buffer => ⟨textReading buffer, bytesReading buffer⟩, ?_⟩
  intro fits
  refine ⟨?_, ?_⟩
  · intro c
    have one := Console.load_of_reading .hexText opened (textReading []) fits c
    have other := Console.load_of_reading .binary opened' (bytesReading []) fits c
    refine ⟨one.trans other.symm, ?_, ?_⟩
    · rw [one]
    · rw [one]
  · intro s
    have one := Session.loadPath_of_reading .hexText (textReading []) fits s
    have other := Session.loadPath_of_reading .binary (bytesReading []) fits s
    refine ⟨one.trans other.symm, ?_⟩
    rw [one]

open HexText in
/-- Four bytes in three tokens: two bytes with a mark and underscores and in both cases, a byte in
one digit with a comment right after it, and a byte before a comment that ends the text. -/
theorem hex_text_layouts_read_back_three_tokens :
    let bytes : List UInt8 := [0xA2, 0x2A, 0x05, 0x1F]
    let text := " # bytes\n\t0x_A22_a,5// 05\r\n\n 0_X1f_ ; end".toList
    let characters := text.map fun c => UInt8.ofNat c.toNat
    let files : Files := fun name =>
      if name = "text" then some (.ofContent 7 characters)
      else if name = "bytes" then some (.ofContent 1 bytes) else none
    let m := (default : Machine)
    readText text "text" = { bytes := bytes } ∧
      (readHexText files "text" [7] = { bytes := bytes } ∧
        readBinary files "bytes" [7] = { bytes := bytes }) ∧
      (({ machine := m } : Console).load files .hexText "text").console.machine =
        (m.load bytes).machine := by
  intro bytes text characters files m
  have lead : Spacing (' ' :: (['#'] ++ " bytes".toList ++ '\n' :: ['\t'])) :=
    .separator (by decide) (.comment (by decide) (by decide) (.separator (by decide) .nil))
  have word : IsToken [0xA2, 0x2A] "0x_A22_a".toList :=
    ⟨['0', 'x'], "A22a".toList, by decide,
      .pairs (by decide) (.cons rfl rfl (.cons rfl rfl .nil)), by decide⟩
  have comma : Spacing [','] := .separator (by decide) .nil
  have short : IsToken [0x05] ['5'] := ⟨[], ['5'], by decide, .digit rfl, by decide⟩
  have remark : Spacing (['/', '/'] ++ " 05\r".toList ++ '\n' :: ['\n', ' ']) :=
    .comment (by decide) (by decide) (.separator (by decide) (.separator (by decide) .nil))
  have byte : IsToken [0x1F] "0_X1f_".toList :=
    ⟨['0', 'X'], "1f".toList, by decide, .pairs (by decide) (.cons rfl rfl .nil), by decide⟩
  have ends : Ending ([' '] ++ ([';'] ++ " end".toList)) :=
    .comment (.separator (by decide) .nil) (by decide) (by decide)
  have layout : IsLayout bytes text :=
    ⟨_, _, lead, .more word comma (by decide) (.more short remark (by decide) (.last byte ends)),
      by decide +kernel⟩
  have read := hex_text_layouts_read_back (by decide) layout
  have received : charsOfBytes (Delivery.ofContent 7 characters).received = text := by
    rw [Delivery.received_ofContent]
    decide +kernel
  have loaded := read.2 files "text" "bytes" (.ofContent 7 characters) (.ofContent 1 bytes)
    rfl received rfl (Delivery.intact_ofContent 1 bytes) (Delivery.received_ofContent 1 bytes)
  exact ⟨read.1 "text", loaded.1 [7], ((loaded.2 (by decide)).1 { machine := m }).2.2⟩

end Chip8
