namespace Chip8

/-!
# Text

Text is a list of characters, one for each byte; the characters after the first 128 mean
nothing in particular.  What counts as a gap between words is blank space of six kinds.

* `lines` — the lines of a text; a last line need not be ended.
* `words` — the pieces between gaps.
* `inLowerCase` — letters in lower case, everything else as it is.
* `splitOn_newline`, `words_eq_splitOnP` — lines and words are the pieces into which newlines and
  gaps cut a text.
-/

/-- Space, tab, newline, vertical tab, form feed and carriage return. -/
def isBlank (c : Char) : Bool :=
  let n := c.toNat
  n == 32 || (9 ≤ n && n ≤ 13)

/-- The lines of a text.  Each newline ends a line, and so does the end of the text, unless
nothing stands before it. -/
def lines : List Char → List (List Char)
  | [] => []
  | c :: rest =>
    if c = '\n' then [] :: lines rest
    else
      match lines rest with
      | [] => [[c]]
      | line :: more => (c :: line) :: more

/-- The longest pieces of a text without gaps. -/
def words (isGap : Char → Bool) : List Char → List (List Char)
  | [] => []
  | c :: rest =>
    if isGap c then words isGap rest
    else
      match rest, words isGap rest with
      | d :: _, word :: more => if isGap d then [c] :: word :: more else (c :: word) :: more
      | _, more => [c] :: more

/-- A letter in lower case; any other character as it is. -/
def lowerLetter (c : Char) : Char :=
  if 65 ≤ c.toNat ∧ c.toNat ≤ 90 then Char.ofNat (c.toNat + 32) else c

/-- A text with its letters in lower case. -/
def inLowerCase (text : String) : String := String.ofList (text.toList.map lowerLetter)

/-- A message on a line of its own. -/
def asLine (message : String) : String := message ++ "\n"

/-- Messages on lines of their own. -/
def asLines (messages : List String) : String := String.join (messages.map asLine)

/-! ### Lines -/

@[simp] theorem lines_nil : lines [] = [] := rfl

/-- A newline ends the line before it. -/
theorem lines_append_newline (line rest : List Char) (h : '\n' ∉ line) :
    lines (line ++ '\n' :: rest) = line :: lines rest := by
  induction line with
  | nil => simp [lines]
  | cons c line ih =>
    rw [List.mem_cons, not_or] at h
    simp [lines, Ne.symm h.1, ih h.2]

/-- Characters without a newline begin the first line of what comes after them. -/
theorem lines_append {line rest : List Char} (nonempty : line ≠ []) (h : '\n' ∉ line) :
    lines (line ++ rest) = (line ++ (lines rest).headD []) :: (lines rest).tail := by
  induction line with
  | nil => exact absurd rfl nonempty
  | cons c line ih =>
    rw [List.mem_cons, not_or] at h
    have here : c ≠ '\n' := Ne.symm h.1
    rw [List.cons_append, lines, if_neg here]
    cases line with
    | nil =>
      rw [List.nil_append]
      cases lines rest <;> rfl
    | cons d line =>
      rw [ih (by simp) h.2]
      rfl

/-- No line has a newline in it. -/
theorem not_mem_of_mem_lines {text line : List Char} (h : line ∈ lines text) : '\n' ∉ line := by
  induction text generalizing line with
  | nil => cases h
  | cons c rest ih =>
    rw [lines] at h
    split at h
    · rcases List.mem_cons.mp h with rfl | later
      · exact List.not_mem_nil
      · exact ih later
    · next here =>
      split at h
      · rw [List.mem_singleton.mp h]
        simpa using Ne.symm here
      · next first more cut =>
        have inside := @ih first (by simp [cut])
        rcases List.mem_cons.mp h with rfl | later
        · simp [inside, Ne.symm here]
        · exact ih (by simp [cut, later])

/-- The lines are the pieces into which the newlines cut a text; an empty last piece is no
line. -/
theorem splitOn_newline (text : List Char) :
    ∃ last, text.splitOn '\n' = lines text ++ last ∧ ∀ line ∈ last, line = [] := by
  induction text with
  | nil => exact ⟨[[]], rfl, by simp⟩
  | cons c rest ih =>
    obtain ⟨last, cut, empty⟩ := ih
    rw [List.splitOn_cons_eq_if_modifyHead, lines, cut]
    by_cases newline : c = '\n'
    · exact ⟨last, by simp [newline], empty⟩
    · rw [if_neg newline, if_neg (by simpa using newline)]
      cases rest' : lines rest with
      | nil =>
        -- only the empty piece is left, and the character comes into it
        rw [rest'] at cut
        cases last with
        | nil => exact absurd cut (List.splitOn_ne_nil '\n' rest)
        | cons piece more =>
          have first : piece = [] := empty piece (by simp)
          subst first
          exact ⟨more, rfl, fun line mem => empty line (List.mem_cons_of_mem _ mem)⟩
      | cons line more => exact ⟨last, rfl, empty⟩

/-! ### Words -/

/-- Words have no gaps in them and are not empty. -/
theorem words_sound (isGap : Char → Bool) (text : List Char) :
    ∀ w ∈ words isGap text, w ≠ [] ∧ ∀ c ∈ w, isGap c = false := by
  induction text with
  | nil => simp [words]
  | cons c rest ih =>
    unfold words
    split
    · exact ih
    · next hc =>
      split
      · next hw =>
        rw [hw] at ih
        split <;> grind
      · grind

section Words

variable {isGap : Char → Bool} {c d : Char} (rest : List Char)

/-- A gap at the head keeps nothing apart. -/
theorem words_cons_of_gap (h : isGap c = true) : words isGap (c :: rest) = words isGap rest := by
  rw [words.eq_def]
  exact if_pos h

/-- A character before a gap ends its word. -/
theorem words_cons_cons_of_gap (h : isGap c = false) (gap : isGap d = true) :
    words isGap (c :: d :: rest) = [c] :: words isGap rest := by
  rw [words.eq_def]
  simp only [h, words_cons_of_gap rest gap]
  cases words isGap rest <;> simp [gap]

/-- A character goes to the word that comes next. -/
theorem words_cons_of_word {word : List Char} {more : List (List Char)} (h : isGap c = false)
    (going : isGap d = false) (next : words isGap (d :: rest) = word :: more) :
    words isGap (c :: d :: rest) = (c :: word) :: more := by
  rw [words.eq_def]
  simp [h, going, next]

/-- A word is what stands before a gap, or before the end. -/
theorem words_append {word : List Char} (nonempty : word ≠ []) (whole : ∀ c ∈ word, isGap c = false)
    (ends : ∀ c ∈ rest.head?, isGap c = true) :
    words isGap (word ++ rest) = word :: words isGap rest := by
  induction word with
  | nil => exact absurd rfl nonempty
  | cons c word ih =>
    have first : isGap c = false := whole c (by simp)
    cases word with
    | nil =>
      cases rest with
      | nil => simp [words, first]
      | cons d rest =>
        have gap : isGap d = true := ends d (by simp)
        rw [words_cons_of_gap rest gap]
        exact words_cons_cons_of_gap rest first gap
    | cons d word =>
      have onward := ih (by simp) fun e mem => whole e (List.mem_cons_of_mem c mem)
      exact words_cons_of_word (word ++ rest) first (whole d (by simp)) onward

/-- The words are the pieces into which the gaps cut a text, without the empty ones. -/
theorem words_eq_splitOnP (isGap : Char → Bool) (text : List Char) :
    words isGap text = (text.splitOnP isGap).filter fun w => !w.isEmpty := by
  induction text with
  | nil => rfl
  | cons c rest ih =>
    rw [List.splitOnP_cons_eq_if_modifyHead]
    by_cases gap : isGap c
    · rw [words_cons_of_gap rest gap, ih, if_pos gap]
      rfl
    · rw [if_neg gap]
      rw [Bool.not_eq_true] at gap
      cases rest with
      | nil => simp [words, gap]
      | cons d rest =>
        rw [List.splitOnP_cons_eq_if_modifyHead] at ih ⊢
        by_cases stop : isGap d
        · -- the character ends its piece, and the rest of the text is cut as before
          rw [words_cons_cons_of_gap rest gap stop]
          rw [words_cons_of_gap rest stop, if_pos stop] at ih
          rw [if_pos stop, ih]
          rfl
        · -- it goes to the first piece of the rest, which is not empty
          rw [if_neg stop] at ih ⊢
          rw [Bool.not_eq_true] at stop
          obtain ⟨piece, more, cut⟩ :=
            List.exists_cons_of_ne_nil (List.splitOnP_ne_nil isGap rest)
          rw [cut] at ih ⊢
          exact words_cons_of_word rest gap stop ih

end Words

end Chip8
