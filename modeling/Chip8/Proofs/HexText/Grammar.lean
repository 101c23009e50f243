import Chip8.Proofs.HexText.Digits
import Chip8.Rom.Files
import Mathlib.Data.List.Flatten
import Mathlib.Data.List.Infix

namespace Chip8

/-!
# The grammar of hex text

Hex text is read in one pass over each line.  Its grammar can be said in passes over the whole
text, each of which a list operation does: cut it into lines, cut the comments off, cut what is
left at blanks and commas, and strip the pieces.

* `HexText.codeOf` — a line up to its earliest comment.
* `HexText.stripped` — a piece without underscores and without the mark of its base.
* `HexText.tokens` — the pieces of a text by its grammar, each with the number of its line;
  `HexText.pieces_eq_tokens` says that these are the pieces that are read.
* `hex_text_read_exactly` — which texts are accepted, what is read from every text, and what is
  said of the texts that are not accepted.
-/

namespace HexText

/-- The marks that begin a comment. -/
def commentMarks : List (List Char) := [['#'], [';'], ['/', '/']]

/-- Whether a comment begins at the head of a text. -/
def beginsComment (text : List Char) : Bool := commentMarks.any fun mark => mark.isPrefixOf text

/-- A line up to the earliest place at which a comment begins. -/
def codeOf (line : List Char) : List Char := line.take (line.tails.findIdx beginsComment)

/-- The characters that keep the pieces of a line apart: the comma, and white space. -/
def separators : List Char := [',', ' ', '\t', '\r', '\x0b', '\x0c']

/-- The marks of base sixteen. -/
def baseMarks : List (List Char) := [['0', 'x'], ['0', 'X']]

/-- A piece without its underscores, and without the mark of its base if more than the mark is
left. -/
def stripped (piece : List Char) : List Char :=
  let bare := piece.filter (· != '_')
  if 2 < bare.length ∧ bare.take 2 ∈ baseMarks then bare.drop 2 else bare

/-- The pieces of one line by the grammar. -/
def lineTokens (line : List Char) : List (List Char) :=
  (((codeOf line).splitOnP separators.contains).map stripped).filter fun piece => !piece.isEmpty

/-- The pieces of a text by the grammar, each with the number of its line; lines count from
one. -/
def tokens (text : List Char) : List (List Char × Nat) :=
  ((text.splitOn '\n').zipIdx 1).flatMap fun (line, number) =>
    (lineTokens line).map fun piece => (piece, number)

/-! ### Lines and their comments -/

/-- Where a comment begins, told from the first two characters. -/
theorem beginsComment_cons (c : Char) (rest : List Char) :
    beginsComment (c :: rest) = true ↔
      c = '#' ∨ c = ';' ∨ (c = '/' ∧ rest.head? = some '/') := by
  have swap (a b : Char) : (a == b) = (b == a) := BEq.comm
  cases rest with
  | nil => simp [beginsComment, commentMarks, List.isPrefixOf, swap _ c]
  | cons d rest => simp [beginsComment, commentMarks, List.isPrefixOf, swap _ c, swap _ d]

/-- A line is read up to its earliest comment. -/
theorem uncommented_eq_codeOf (line : List Char) : uncommented line = codeOf line := by
  induction line with
  | nil => rfl
  | cons c rest ih =>
    have mark := beginsComment_cons c rest
    rw [uncommented, codeOf, List.tails_cons, List.findIdx_cons]
    cases begins : beginsComment (c :: rest) with
    | true =>
      rw [begins] at mark
      rw [if_pos (mark.mp rfl)]
      rfl
    | false =>
      rw [begins] at mark
      rw [if_neg fun h => Bool.false_ne_true (mark.mpr h), ih]
      rfl

/-! ### Pieces -/

/-- Within a line, where there is no newline, the separators are what keeps pieces apart. -/
theorem isGap_eq_contains {c : Char} (h : c ≠ '\n') : isGap c = separators.contains c := by
  have number : c = Char.ofNat c.toNat := (Char.ofNat_toNat c).symm
  rw [Bool.eq_iff_iff, List.contains_iff_mem]
  simp only [isGap, isBlank, Bool.or_eq_true, Bool.and_eq_true, beq_iff_eq, decide_eq_true_eq]
  constructor
  · rintro ((space | ⟨low, high⟩) | rfl)
    · rw [number, space]
      decide
    · -- of the codes in a row, the newline is the only one that is no separator
      have newline : c.toNat ≠ 10 := by
        intro ten
        rw [number, ten] at h
        exact h rfl
      have codes : c.toNat = 9 ∨ c.toNat = 11 ∨ c.toNat = 12 ∨ c.toNat = 13 := by omega
      rcases codes with code | code | code | code <;> rw [number, code] <;> decide
    · decide
  · intro mem
    simp only [separators, List.mem_cons, List.not_mem_nil, or_false] at mem
    rcases mem with rfl | rfl | rfl | rfl | rfl | rfl <;> decide

/-- A text is cut alike by tests that agree on its characters. -/
theorem splitOnP_congr {p q : Char → Bool} {text : List Char} (h : ∀ c ∈ text, p c = q c) :
    text.splitOnP p = text.splitOnP q := by
  induction text with
  | nil => rfl
  | cons c rest ih =>
    have later := ih fun d mem => h d (List.mem_cons_of_mem c mem)
    rw [List.splitOnP_cons_eq_if_modifyHead, List.splitOnP_cons_eq_if_modifyHead, later,
      h c (by simp)]

/-- The mark of the base is dropped where more than the mark is there. -/
theorem unmarked_eq (piece : List Char) :
    unmarked piece =
      if 2 < piece.length ∧ piece.take 2 ∈ baseMarks then piece.drop 2 else piece := by
  match piece with
  | [] | [_] | [_, _] => simp [unmarked]
  | z :: x :: d :: rest =>
    by_cases zero : z = '0'
    · subst zero
      simp [unmarked, baseMarks]
    · simp [unmarked, baseMarks, zero]

/-- Empty pieces may be left out before pieces are stripped as well as after that. -/
theorem filter_stripped (cuts : List (List Char)) :
    ((cuts.filter fun w => !w.isEmpty).map stripped).filter (fun piece => !piece.isEmpty) =
      (cuts.map stripped).filter fun piece => !piece.isEmpty := by
  induction cuts with
  | nil => rfl
  | cons cut cuts ih =>
    cases cut with
    | nil => exact ih
    | cons c rest => simp only [List.filter_cons, List.isEmpty_cons, Bool.not_false, if_true,
        List.map_cons, ih]

/-- The pieces of a line are those of the grammar. -/
theorem linePieces_eq_lineTokens {line : List Char} (h : '\n' ∉ line) :
    linePieces line = lineTokens line := by
  have cleaned_eq : cleaned = stripped := funext fun piece => unmarked_eq _
  have alike : ∀ c ∈ codeOf line, isGap c = separators.contains c := by
    intro c mem
    apply isGap_eq_contains
    rintro rfl
    exact h (List.mem_of_mem_take mem)
  rw [linePieces, words_eq_splitOnP, uncommented_eq_codeOf, splitOnP_congr alike, cleaned_eq,
    filter_stripped]
  rfl

/-- The pieces of a text are those of the grammar, and they stand on the same lines. -/
theorem pieces_eq_tokens (text : List Char) : pieces text = tokens text := by
  obtain ⟨last, cut, empty⟩ := splitOn_newline text
  have ending : (last.zipIdx (1 + (lines text).length)).flatMap
      (fun (line, number) => (lineTokens line).map fun piece => (piece, number)) = [] := by
    rw [List.flatMap_eq_nil_iff]
    rintro ⟨line, number⟩ mem
    rw [empty line (List.fst_mem_of_mem_zipIdx mem)]
    rfl
  rw [pieces, tokens, cut, List.zipIdx_append, List.flatMap_append, ending, List.append_nil]
  apply List.flatMap_congr
  rintro ⟨line, number⟩ mem
  have inside := not_mem_of_mem_lines (List.fst_mem_of_mem_zipIdx mem)
  simp only [linePieces_eq_lineTokens inside]

/-- No piece is empty. -/
theorem ne_nil_of_mem_pieces {text : List Char} {p : List Char × Nat} (h : p ∈ pieces text) :
    p.1 ≠ [] := by
  simp only [pieces, linePieces, List.mem_flatMap, List.mem_map, List.mem_filter] at h
  obtain ⟨_, _, _, ⟨_, nonempty⟩, rfl⟩ := h
  simpa using nonempty

/-- Good pieces at the head of a text denote something. -/
theorem exists_denotesAll_of_good {text : List Char} {ps : List (List Char × Nat)}
    (among : ps ⊆ pieces text) (good : ∀ p ∈ ps, Good p.1) :
    ∃ bytes, DenotesAll (ps.map Prod.fst) bytes := by
  apply exists_denotesAll
  · intro _ mem
    obtain ⟨p, inside, rfl⟩ := List.mem_map.mp mem
    exact ne_nil_of_mem_pieces (among inside)
  · intro _ mem
    obtain ⟨p, inside, rfl⟩ := List.mem_map.mp mem
    exact good p inside

/-- Among pieces of which not all are good, there is a first one that is not. -/
theorem exists_first_not_good {ps : List (List Char × Nat)} (h : ¬ ∀ p ∈ ps, Good p.1) :
    ∃ before p after, ps = before ++ p :: after ∧ (∀ q ∈ before, Good q.1) ∧ ¬ Good p.1 := by
  induction ps with
  | nil => exact absurd (by simp) h
  | cons p ps ih =>
    by_cases good : Good p.1
    · have later : ¬ ∀ q ∈ ps, Good q.1 := by
        intro all
        exact h (List.forall_mem_cons.mpr ⟨good, all⟩)
      obtain ⟨before, q, after, cut, first, bad⟩ := ih later
      exact ⟨p :: before, q, after, by rw [cut]; rfl, List.forall_mem_cons.mpr ⟨good, first⟩, bad⟩
    · exact ⟨[], p, ps, rfl, by simp, good⟩

/-! ### Acceptance -/

/-- A text that is accepted has good pieces only, and at least one byte. -/
theorem good_of_ok {text : List Char} {origin : String} (ok : (readText text origin).ok = true) :
    (∀ p ∈ pieces text, Good p.1) ∧
      ∃ bytes, DenotesAll ((pieces text).map Prod.fst) bytes ∧ bytes ≠ [] := by
  by_cases good : ∀ p ∈ pieces text, Good p.1
  · obtain ⟨bytes, all⟩ := exists_denotesAll_of_good (List.Subset.refl _) good
    refine ⟨good, bytes, all, ?_⟩
    rintro rfl
    rw [readText, read_of_denotesAll_nil all] at ok
    cases ok
  · -- the first piece that is not good is complained of
    obtain ⟨before, ⟨piece, line⟩, after, cut, first, bad⟩ := exists_first_not_good good
    have among : before ⊆ pieces text := by
      rw [cut]
      exact List.subset_append_left _ _
    obtain ⟨bytes, all⟩ := exists_denotesAll_of_good among first
    rw [readText, read_of_not_good cut all bad] at ok
    cases ok

end HexText

open HexText in
/-- Hex text is read exactly by its grammar.  A text is accepted if and only if all of its pieces
are good and there is at least one byte, and then the bytes that its pieces denote are read.
Otherwise the bytes that are left are those of the pieces before the first one that is not good,
and the log tells this piece, what is wrong with it and on which line it stands; or there are no
bytes, and the log says so.  What was in the buffer before makes no difference to the text that a
file brings. -/
theorem hex_text_read_exactly (text : List Char) (origin : String) :
    ((readText text origin).ok = true ↔
      (∀ p ∈ tokens text, Good p.1) ∧
        ∃ bytes, DenotesAll ((tokens text).map Prod.fst) bytes ∧ bytes ≠ []) ∧
    (∀ bytes, DenotesAll ((tokens text).map Prod.fst) bytes → bytes ≠ [] →
      readText text origin = { bytes := bytes }) ∧
    (∀ before piece line after, tokens text = before ++ (piece, line) :: after →
      (∀ p ∈ before, Good p.1) → ¬ Good piece →
      DenotesAll (before.map Prod.fst) (readText text origin).bytes ∧
        (readText text origin).log =
          asLine ((if piece.all isHexDigit then "[loadhex] byte out of range '"
              else "[loadhex] non-hex token '")
            ++ String.ofList piece ++ "' at " ++ origin ++ ":" ++ toString line)) ∧
    (tokens text = [] →
      (readText text origin).bytes = [] ∧
        (readText text origin).log = asLine ("[loadhex] no bytes read from " ++ origin)) ∧
    ∀ (files : Files) (path : String) (delivery : Delivery) (buffer : List UInt8),
      files.open? path = some delivery → charsOfBytes delivery.received = text →
      readHexText files path buffer = readText text path := by
  rw [← pieces_eq_tokens]
  refine ⟨?_, ?_, ?_, ?_, ?_⟩
  · constructor
    · exact good_of_ok
    · rintro ⟨_, bytes, all, nonempty⟩
      rw [readText, read_of_denotesAll all nonempty]
      rfl
  · intro bytes all nonempty
    rw [readText, read_of_denotesAll all nonempty]
    rfl
  · intro before piece line after cut good bad
    have among : before ⊆ pieces text := by
      rw [cut]
      exact List.subset_append_left _ _
    obtain ⟨bytes, all⟩ := exists_denotesAll_of_good among good
    rw [readText, read_of_not_good cut all bad]
    refine ⟨all, ?_⟩
    cases piece.all isHexDigit <;> rfl
  · intro empty
    rw [readText, HexText.read, empty]
    exact ⟨rfl, rfl⟩
  · intro files path delivery buffer opened content
    rw [readHexText, opened, ← content]

open HexText in
/-- Two lines with comments are read in full, a word in two bytes and a byte whose mark an
underscore splits, also where a file brings them to a buffer that is not empty.  A piece of three
digits on the next line ends the reading, and of a comment alone nothing is read. -/
theorem hex_text_read_exactly_up_to_piece_of_three :
    let good := "A22A # x\n0_x1F//y\n".toList
    let bad := "A22A # x\n0_x1F//y\n,123 ZZ".toList
    let before := [("A22A".toList, 1), ("1F".toList, 2)]
    let files : Files := fun name => if name = "rom" then some (.ofContent 4 [0x31, 0x32]) else none
    readText good "rom" = { bytes := [0xA2, 0x2A, 0x1F] } ∧
      (DenotesAll (before.map Prod.fst) (readText bad "rom").bytes ∧
        (readText bad "rom").log = "[loadhex] byte out of range '123' at rom:3\n") ∧
      ((readText "; x".toList "rom").bytes = [] ∧
        (readText "; x".toList "rom").log = "[loadhex] no bytes read from rom\n") ∧
      readHexText files "rom" [7] = readText "12".toList "rom" := by
  intro good bad before files
  have denotes : DenotesAll ((tokens good).map Prod.fst) [0xA2, 0x2A, 0x1F] := by
    have cut : (tokens good).map Prod.fst = ["A22A".toList, "1F".toList] := by decide +kernel
    have word : Denotes "A22A".toList [0xA2, 0x2A] :=
      .pairs (by decide) (.cons rfl rfl (.cons rfl rfl .nil))
    have byte : Denotes "1F".toList [0x1F] := .pairs (by decide) (.cons rfl rfl .nil)
    rw [cut]
    exact .cons word (.cons byte .nil)
  have cut : tokens bad = before ++ ("123".toList, 3) :: [("ZZ".toList, 3)] := by decide +kernel
  refine ⟨?_, ?_, ?_, ?_⟩
  · exact (hex_text_read_exactly good "rom").2.1 _ denotes (by decide)
  · exact (hex_text_read_exactly bad "rom").2.2.1 _ _ _ _ cut (by decide) (by decide)
  · exact (hex_text_read_exactly "; x".toList "rom").2.2.2.1 (by decide +kernel)
  · have received : charsOfBytes (Delivery.ofContent 4 [0x31, 0x32]).received = "12".toList := by
      rw [Delivery.received_ofContent]
      rfl
    exact (hex_text_read_exactly "12".toList "rom").2.2.2.2 files "rom" _ [7] rfl received

end Chip8
