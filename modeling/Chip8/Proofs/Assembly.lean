import Chip8.Instruction.Listing
import Chip8.Proofs.Decoding
import Chip8.Proofs.Numerals

namespace Chip8

/-!
# Listings can be assembled

The text of a word says all about it: an assembler reads the word back.  Several forms share a
mnemonic, and a form that shares it with another one differs in what its operands look like: there
are more of them, or somewhere a register stands against a number behind a dollar sign, numbers of
different lengths against each other, or a name against something else.

* `Slot`, `Form.slots`, `Slot.read?` — where operands of a form go, and how a text is read there.
* `assemble?` — the word that a text stands for.
* `Slot.read?_text` — an operand is read as the number that it shows.
* `words_listing` — a listing is cut into its mnemonic and its operands.
* `Form.clash_slots` — no operands can be read at the places of two forms with the same mnemonic.
* `base_add_operands` — what stands at the places of a form adds up to the word.
* `assemble?_listing`, `listings_determine_words` — the listing of a word is assembled to the word,
  so no two words have the same listing.
-/

/-! ### Places for operands -/

/-- A place for an operand. -/
inductive Slot where
  /-- The register of the second digit. -/
  | x
  /-- The register of the third digit. -/
  | y
  /-- A byte. -/
  | byte
  /-- An address. -/
  | address
  /-- A count of rows. -/
  | rows
  /-- A whole word. -/
  | word
  /-- A part of the machine that is always the same one. -/
  | name (text : String)
  deriving DecidableEq, Repr

/-- The places of a form. -/
def Form.slots : Form → List Slot
  | clear | ret => []
  | native | jump | call => [.address]
  | skipIfByte | skipUnlessByte | setByte | addByte | random => [.x, .byte]
  | skipIfEqual | skipUnlessEqual | copy | or | and | xor
  | add | sub | shiftRight | subFrom | shiftLeft => [.x, .y]
  | setIndex => [.name "I", .address]
  | jumpOffset => [.name "V0", .address]
  | draw => [.x, .y, .rows]
  | skipIfKey | skipUnlessKey => [.x]
  | readDelay => [.x, .name "DT"]
  | awaitKey => [.x, .name "K"]
  | setDelay => [.name "DT", .x]
  | setSound => [.name "ST", .x]
  | addIndex => [.name "I", .x]
  | glyph => [.name "F", .x]
  | decimal => [.name "B", .x]
  | store => [.name "[I]", .x]
  | load => [.x, .name "[I]"]
  | data => [.word]

/-- The word of a form whose operands are all zero. -/
def Form.base : Form → Nat
  | native | data => 0x0000
  | clear => 0x00E0
  | ret => 0x00EE
  | jump => 0x1000
  | call => 0x2000
  | skipIfByte => 0x3000
  | skipUnlessByte => 0x4000
  | skipIfEqual => 0x5000
  | setByte => 0x6000
  | addByte => 0x7000
  | copy => 0x8000
  | or => 0x8001
  | and => 0x8002
  | xor => 0x8003
  | add => 0x8004
  | sub => 0x8005
  | shiftRight => 0x8006
  | subFrom => 0x8007
  | shiftLeft => 0x800E
  | skipUnlessEqual => 0x9000
  | setIndex => 0xA000
  | jumpOffset => 0xB000
  | random => 0xC000
  | draw => 0xD000
  | skipIfKey => 0xE09E
  | skipUnlessKey => 0xE0A1
  | readDelay => 0xF007
  | awaitKey => 0xF00A
  | setDelay => 0xF015
  | setSound => 0xF018
  | addIndex => 0xF01E
  | glyph => 0xF029
  | decimal => 0xF033
  | store => 0xF055
  | load => 0xF065

namespace Slot

/-- What one counts for in a word. -/
def weight : Slot → Nat
  | x => 0x100
  | y => 0x10
  | byte | address | rows | word => 1
  | name _ => 0

/-- The operand that goes to a place. -/
def operand (s : Fields) : Slot → Operand
  | x => .register s.x
  | y => .register s.y
  | byte => .byte s.byte
  | address => .address s.address
  | rows => .count s.n
  | word => .word s.word
  | name text => .named text

/-- The number that the operand at a place shows. -/
def value (s : Fields) : Slot → Nat
  | x => s.x.toNat
  | y => s.y.toNat
  | byte => s.byte.toNat
  | address => s.address.toNat
  | rows => s.n.toNat
  | word => s.word.toNat
  | name _ => 0

/-- The sign and the count of digits of a number of base sixteen. -/
def signed? : Slot → Option (Char × Nat)
  | x | y => some ('V', 1)
  | byte => some ('$', 2)
  | address => some ('$', 3)
  | word => some ('$', 4)
  | rows | name _ => none

end Slot

/-- The operands of a form go to its places. -/
theorem Form.operands_eq (f : Form) (s : Fields) : f.operands s = f.slots.map (Slot.operand s) := by
  cases f <;> rfl

/-! ### The assembler -/

/-- Whether a character keeps words of a listing apart. -/
def isSeparator (c : Char) : Bool := c == ' ' || c == ','

/-- The number that a count of digits of base sixteen after a sign stand for. -/
def signedDigits? (sign : Char) (count : Nat) : List Char → Option Nat
  | [] => none
  | c :: digits =>
    if c = sign ∧ digits.length = count ∧ digits.all isHexDigit then some (digitsValue 16 digits)
    else none

/-- The number that decimal digits stand for. -/
def decimalDigits? (token : List Char) : Option Nat :=
  if token ≠ [] ∧ token.all (isDigitOf 10) then some (digitsValue 10 token) else none

/-- The number that a text stands for at a place; a name counts nothing. -/
def Slot.read? (s : Slot) (token : List Char) : Option Nat :=
  match s.signed?, s with
  | some (sign, count), _ => signedDigits? sign count token
  | none, name text => if token = text.toList then some 0 else none
  | none, _ => decimalDigits? token

theorem Slot.read?_of_signed {s : Slot} {sign : Char} {count : Nat}
    (h : s.signed? = some (sign, count)) (token : List Char) :
    s.read? token = signedDigits? sign count token := by
  unfold Slot.read?
  rw [h]

/-- What the operands at some places add up to. -/
def readSlots? : List Slot → List (List Char) → Option Nat
  | [], [] => some 0
  | s :: slots, token :: tokens => do
    let number ← s.read? token
    let others ← readSlots? slots tokens
    some (s.weight * number + others)
  | _, _ => none

/-- The word of a form with operands. -/
def Form.assemble? (f : Form) (mnemonic : List Char) (tokens : List (List Char)) : Option UInt16 :=
  if mnemonic = f.mnemonic.toList then
    (readSlots? f.slots tokens).map fun operands => UInt16.ofNat (f.base + operands)
  else none

/-- The word that a text stands for: that of the first form that it can be read as. -/
def assemble? (text : String) : Option UInt16 :=
  match words isSeparator text.toList with
  | [] => none
  | mnemonic :: tokens => Form.all.findSome? fun f => f.assemble? mnemonic tokens

/-! ### Reading operands -/

section Reading

variable {sign : Char} {count n : Nat} {token : List Char}

theorem signedDigits?_eq_some_iff :
    signedDigits? sign count token = some n ↔
      ∃ digits, token = sign :: digits ∧ digits.length = count ∧
        (∀ c ∈ digits, isHexDigit c = true) ∧ digitsValue 16 digits = n := by
  cases token with
  | nil => simp [signedDigits?]
  | cons c digits =>
    rw [signedDigits?, Option.ite_none_right_eq_some, List.all_eq_true]
    constructor
    · rintro ⟨⟨rfl, length, all⟩, value⟩
      exact ⟨digits, rfl, length, all, Option.some.inj value⟩
    · rintro ⟨_, same, length, all, value⟩
      cases same
      exact ⟨⟨rfl, length, all⟩, congrArg some value⟩

/-- A number in its count of digits is read back. -/
theorem signedDigits?_hex (positive : 0 < count) (small : n < 16 ^ count) :
    signedDigits? sign count (sign :: (hex count n).toList) = some n := by
  refine signedDigits?_eq_some_iff.mpr ⟨_, rfl, ?_, ?_, ?_⟩
  all_goals rw [toList_hex positive small]
  · exact length_hexDigits count n
  · intro c mem
    exact isHexDigit_of_mem_hexDigits mem
  · rw [digitsValue_hexDigits, Nat.mod_eq_of_lt small]

/-- A decimal number is read back. -/
theorem decimalDigits?_toString (n : Nat) : decimalDigits? (toString n).toList = some n := by
  have all : ∀ c ∈ Nat.toDigits 10 n, isDigitOf 10 c = true := fun c mem =>
    isDigitOf_of_mem_toDigits mem
  rw [Nat.toString_eq_ofList_toDigits, String.toList_ofList, decimalDigits?,
    if_pos ⟨Nat.toDigits_ne_nil, List.all_eq_true.mpr all⟩, digitsValue_toDigits]

/-- An operand is read as the number that it shows. -/
theorem Slot.read?_text (s : Slot) (w : UInt16) :
    s.read? (s.operand (Fields.ofWord w)).text.toList = some (s.value (Fields.ofWord w)) := by
  have inside := w.toNat_lt
  cases s with
  | x | y | byte | address | word =>
    simp only [Slot.operand, Operand.text, hexByte, hexWord, String.toList_append]
    exact signedDigits?_hex (by decide) (by simp [Fields.ofWord]; omega)
  | rows => exact decimalDigits?_toString _
  | name text => exact if_pos rfl

/-- So are operands one after another. -/
theorem readSlots?_texts (slots : List Slot) (w : UInt16) :
    readSlots? slots (slots.map fun s => (s.operand (Fields.ofWord w)).text.toList) =
      some (slots.map fun s => s.weight * s.value (Fields.ofWord w)).sum := by
  induction slots with
  | nil => rfl
  | cons s slots ih =>
    simp only [List.map_cons, readSlots?, Slot.read?_text, ih, List.sum_cons]
    rfl

end Reading

/-! ### The words of a listing -/

/-- A text that no separator cuts. -/
def Whole (token : List Char) : Prop := token ≠ [] ∧ ∀ c ∈ token, isSeparator c = false

instance (token : List Char) : Decidable (Whole token) :=
  haveI : Decidable (∀ c ∈ token, isSeparator c = false) := List.decidableBAll _ token
  inferInstanceAs (Decidable (_ ∧ _))

/-- A digit is no separator. -/
theorem isSeparator_of_isHexDigit {c : Char} (h : isHexDigit c = true) : isSeparator c = false := by
  rw [← Bool.not_eq_true]
  intro separator
  rw [isSeparator, Bool.or_eq_true, beq_iff_eq, beq_iff_eq] at separator
  rcases separator with rfl | rfl <;> exact absurd h (by decide)

/-- Whether the name at a place, if there is one, is whole. -/
def Slot.Tidy : Slot → Prop
  | name text => Whole text.toList
  | _ => True

instance : DecidablePred Slot.Tidy
  | .name text => inferInstanceAs (Decidable (Whole text.toList))
  | .x | .y | .byte | .address | .rows | .word => isTrue trivial

/-- What can be read at a place is whole. -/
theorem Slot.whole_of_read? {s : Slot} {token : List Char} {n : Nat} (tidy : s.Tidy)
    (h : s.read? token = some n) : Whole token := by
  cases s with
  | x | y | byte | address | word =>
    obtain ⟨digits, rfl, -, all, -⟩ := signedDigits?_eq_some_iff.mp h
    refine ⟨List.cons_ne_nil _ _, ?_⟩
    intro c mem
    rcases List.mem_cons.mp mem with rfl | mem
    · rfl
    · exact isSeparator_of_isHexDigit (all c mem)
  | rows =>
    obtain ⟨⟨nonempty, all⟩, -⟩ := Option.ite_none_right_eq_some.mp h
    refine ⟨nonempty, ?_⟩
    intro c mem
    have digit : isDigitOf 10 c = true := List.all_eq_true.mp all c mem
    exact isSeparator_of_isHexDigit (Numeral.isHexDigit_of_isDigitOf digit)
  | name text =>
    obtain ⟨rfl, -⟩ := Option.ite_none_right_eq_some.mp h
    exact tidy

/-- Whole texts with separators between them are cut into just these texts. -/
theorem words_intercalate {texts : List (List Char)} (whole : ∀ t ∈ texts, Whole t) :
    words isSeparator ([',', ' '].intercalate texts) = texts := by
  induction texts with
  | nil => rfl
  | cons t texts ih =>
    obtain ⟨nonempty, uncut⟩ := whole t (by simp)
    cases texts with
    | nil =>
      rw [List.intercalate_singleton, ← List.append_nil t]
      rw [words_append [] nonempty uncut (by simp)]
      simp [words]
    | cons u texts =>
      have later := ih fun t mem => whole t (List.mem_cons_of_mem _ mem)
      rw [List.intercalate_cons_cons, List.append_assoc, List.cons_append, List.cons_append,
        List.nil_append, words_append _ nonempty uncut (by simp [isSeparator]),
        words_cons_of_gap _ rfl, words_cons_of_gap _ rfl, later]

theorem Form.mem_all (f : Form) : f ∈ Form.all := by
  cases f <;> decide

/-- Mnemonics and names are whole. -/
theorem Form.tidy (f : Form) : Whole f.mnemonic.toList ∧ ∀ s ∈ f.slots, s.Tidy := by
  have all : ∀ f ∈ Form.all, Whole f.mnemonic.toList ∧ ∀ s ∈ f.slots, s.Tidy := by decide +kernel
  exact all f f.mem_all

/-- The texts of the operands that a word of a form has. -/
def Form.texts (f : Form) (w : UInt16) : List (List Char) :=
  f.slots.map fun s => (s.operand (Fields.ofWord w)).text.toList

/-- A listing is cut into its mnemonic and its operands. -/
theorem words_listing (w : UInt16) :
    words isSeparator (listing w).toList =
      (decode w).form.mnemonic.toList :: (decode w).form.texts w := by
  generalize form : (decode w).form = f
  obtain ⟨⟨nonempty, uncut⟩, tidy⟩ := f.tidy
  have whole : ∀ t ∈ f.texts w, Whole t := by
    intro t mem
    obtain ⟨s, here, rfl⟩ := List.mem_map.mp mem
    exact Slot.whole_of_read? (tidy s here) (s.read?_text w)
  have texts : ((f.operands (Fields.ofWord w)).map Operand.text).map String.toList = f.texts w := by
    rw [f.operands_eq, List.map_map, List.map_map]
    rfl
  rw [listing, form, Form.listing]
  split
  · -- nothing comes after the mnemonic
    next none =>
    rw [none] at texts
    rw [← texts, ← List.append_nil f.mnemonic.toList, words_append [] nonempty uncut (by simp)]
    simp [words]
  · rw [String.toList_append, String.toList_append, String.toList_intercalate, texts,
      List.append_assoc, words_append _ nonempty uncut (by simp [isSeparator])]
    show _ :: words isSeparator (' ' :: _) = _
    rw [words_cons_of_gap _ rfl]
    exact congrArg _ (words_intercalate whole)

/-! ### Forms with the same mnemonic -/

/-- Whether a text that can be read at one place can never be read at another one: one of them is
for a name that does not fit the other, or they are for numbers of base sixteen with different signs
or different counts of digits. -/
def Slot.apart : Slot → Slot → Bool
  | name text, t => (t.read? text.toList).isNone
  | s, name text => (s.read? text.toList).isNone
  | s, t => s.signed?.isSome && t.signed?.isSome && s.signed? != t.signed?

/-- Whether there are no operands that can be read at some places as well as at others. -/
def clash : List Slot → List Slot → Bool
  | [], [] => false
  | s :: slots, t :: others => s.apart t || clash slots others
  | _, _ => true

/-- A number behind a sign is not one behind another sign, or one of another length. -/
theorem signedDigits?_eq_none_of_ne {kind other : Char × Nat} {token : List Char} {n : Nat}
    (distinct : kind ≠ other) (h : signedDigits? kind.1 kind.2 token = some n) :
    signedDigits? other.1 other.2 token = none := by
  obtain ⟨digits, rfl, length, -, -⟩ := signedDigits?_eq_some_iff.mp h
  by_contra read
  obtain ⟨m, read⟩ := Option.ne_none_iff_exists'.mp read
  obtain ⟨digits', same, length', -, -⟩ := signedDigits?_eq_some_iff.mp read
  obtain ⟨sign, rfl⟩ := List.cons.inj same
  exact distinct (Prod.ext sign (length.symm.trans length'))

/-- What is read at one place is not read at a place apart from it. -/
theorem Slot.read?_eq_none_of_apart {s t : Slot} {token : List Char} {n : Nat}
    (apart : s.apart t = true) (h : s.read? token = some n) : t.read? token = none := by
  unfold Slot.apart at apart
  split at apart
  · next text =>
    obtain ⟨rfl, -⟩ := Option.ite_none_right_eq_some.mp h
    exact Option.isNone_iff_eq_none.mp apart
  · next text _ =>
    refine if_neg ?_
    rintro rfl
    rw [h] at apart
    cases apart
  · rw [Bool.and_eq_true, Bool.and_eq_true, Option.isSome_iff_exists, Option.isSome_iff_exists,
      bne_iff_ne] at apart
    obtain ⟨⟨⟨⟨sign, count⟩, first⟩, ⟨⟨sign', count'⟩, second⟩⟩, distinct⟩ := apart
    rw [first, second] at distinct
    rw [Slot.read?_of_signed first] at h
    rw [Slot.read?_of_signed second]
    exact signedDigits?_eq_none_of_ne (fun same => distinct (congrArg some same)) h

/-- Nor are operands that are read at some places read at places that clash with them. -/
theorem readSlots?_eq_none_of_clash {slots others : List Slot} {tokens : List (List Char)} {n : Nat}
    (h : clash slots others = true) (read : readSlots? slots tokens = some n) :
    readSlots? others tokens = none := by
  induction slots generalizing others tokens n with
  | nil =>
    cases tokens with
    | cons token tokens => cases read
    | nil =>
      cases others with
      | nil => cases h
      | cons t others => rfl
  | cons s slots ih =>
    cases tokens with
    | nil => cases read
    | cons token tokens =>
      cases others with
      | nil => rfl
      | cons t others =>
        -- either the first text cannot be read at both places, or the clash is among the others
        obtain ⟨number, first, read⟩ := Option.bind_eq_some_iff.mp read
        obtain ⟨sum, later, -⟩ := Option.bind_eq_some_iff.mp read
        rw [readSlots?]
        rcases Bool.or_eq_true_iff.mp h with here | after
        · rw [Slot.read?_eq_none_of_apart here first]
          rfl
        · rw [ih after later]
          cases t.read? token <;> rfl

/-- Two forms with the same mnemonic are told apart by their operands. -/
theorem Form.clash_slots {f g : Form} (distinct : f ≠ g) (same : f.mnemonic = g.mnemonic) :
    clash f.slots g.slots = true := by
  -- there are finitely many forms, so all pairs of them can be looked at
  have all : ∀ f ∈ Form.all, ∀ g ∈ Form.all,
      f ≠ g → f.mnemonic = g.mnemonic → clash f.slots g.slots = true := by
    decide +kernel
  exact all f f.mem_all g g.mem_all distinct same

/-! ### Assembling what was listed -/

/-- The word of an instruction is that of its form with its operands added. -/
theorem base_add_operands (i : Instruction) :
    i.form.base + (i.form.slots.map fun s => s.weight * s.value (Fields.ofWord i.encode)).sum =
      i.encode.toNat := by
  cases i
  all_goals
    simp [Instruction.form, Instruction.encode, Form.base, Form.slots, Slot.weight, Slot.value,
      Fields.ofWord, toNat_wordOfTarget, toNat_wordOfByte, toNat_wordOfPair, target_wordOfTarget,
      lowByte_wordOfByte, lastDigit_wordOfPair, registerX_wordOfByte, registerX_wordOfPair,
      registerY_wordOfPair]
  all_goals omega

/-- A listing is read as its own form. -/
theorem assemble?_own (w : UInt16) :
    (decode w).form.assemble? (decode w).form.mnemonic.toList ((decode w).form.texts w) =
      some w := by
  have total := base_add_operands (decode w)
  rw [encode_decode] at total
  rw [Form.assemble?, if_pos rfl, Form.texts, readSlots?_texts, Option.map_some, total,
    UInt16.ofNat_toNat]

/-- A listing is not read as any other form. -/
theorem eq_form_of_assemble? {g : Form} {w v : UInt16}
    (h : g.assemble? (decode w).form.mnemonic.toList ((decode w).form.texts w) = some v) :
    g = (decode w).form := by
  obtain ⟨same, read⟩ := Option.ite_none_right_eq_some.mp h
  by_contra other
  have clash := Form.clash_slots (Ne.symm other) (String.toList_inj.mp same)
  rw [Form.texts, readSlots?_eq_none_of_clash clash (readSlots?_texts _ w)] at read
  cases read

/-- The listing of a word is assembled to the word. -/
theorem assemble?_listing (w : UInt16) : assemble? (listing w) = some w := by
  have own := assemble?_own w
  rw [assemble?, words_listing]
  dsimp only
  -- the form that is found first can only be the form of the word
  cases found : Form.all.findSome? _ with
  | none =>
    rw [List.findSome?_eq_none_iff.mp found _ (Form.mem_all _)] at own
    cases own
  | some v =>
    obtain ⟨g, -, read⟩ := List.exists_of_findSome?_eq_some found
    rw [eq_form_of_assemble? read] at read
    exact read.symm.trans own

/-- Listings lose nothing: each word of a program can be assembled from its listing, so the texts of
a program determine its words, and different words never have the same text. -/
theorem listings_determine_words :
    (∀ words : List UInt16, (words.map listing).mapM assemble? = some words) ∧
      (∀ words words' : List UInt16, words.map listing = words'.map listing ↔ words = words') ∧
      ∀ w w' : UInt16, listing w = listing w' ↔ w = w' := by
  have whole : ∀ words : List UInt16, (words.map listing).mapM assemble? = some words := by
    intro words
    induction words with
    | nil => rfl
    | cons w words ih => rw [List.map_cons, List.mapM_cons, assemble?_listing, ih]; rfl
  refine ⟨whole, fun words words' => ⟨?_, congrArg _⟩, fun w w' => ⟨?_, congrArg _⟩⟩
  · intro same
    have read := whole words
    rw [same, whole words'] at read
    exact (Option.some.inj read).symm
  · intro same
    have read := assemble?_listing w
    rw [same, assemble?_listing w'] at read
    exact (Option.some.inj read).symm

-- three forms with one mnemonic
example : ["LD VA, $2A", "LD VA, V2", "LD I, $A2A"].map assemble? =
    [some 0x6A2A, some 0x8A20, some 0xAA2A] := by decide +kernel

end Chip8
