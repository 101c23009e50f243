import Chip8.Proofs.Breakpoints
import Chip8.Proofs.KeptProgram
import Chip8.Proofs.Numerals

namespace Chip8

/-!
# What a line may change

A line that is turned down changes nothing, nor does one that only looks at the session.  Each of
the other lines that do not let the machine run changes one part of the session.

* `Reply.Refuses`, `Reply.Affirms` — an answer turns a line down, or says what was done.
* `Session.Keeps` — a session that is as before, whatever time it is.
* `Command.inspects`, `Command.inspectingNames` — commands that only look, and their names.
* `Session.keeps_or_affirms` — a command changes nothing, or its answer says what was done.
* `lines_change_what_they_name` — what a line may change, read off its words and its answer.
-/

/-! ### Answers -/

/-- The beginnings of the answers that turn a line down, because it is not understood or because
what it asks to be loaded cannot be. -/
def refusals : List String :=
  ["Unknown command", "usage: ", "key must be 0..F", "bad argument (",
   "[loadbin] failed to read ", "[loadhex] failed to read ",
   "[loadbin] RomTooLarge ", "[loadhex] RomTooLarge ", "[reset] RomTooLarge "]

/-- The beginnings of the answers to commands that may change something. -/
def affirmations : List String :=
  ["PC=", "* ", "[0", "break at ", "removed ", "no breakpoint at ", "all ", "Key ", "ipf=",
   "shift=", "[loadbin] loaded ", "[loadhex] loaded ", "[reset] loaded "]

/-- A text begins with another one. -/
def Begins (front text : String) : Prop := front.toList <+: text.toList

instance (front text : String) : Decidable (Begins front text) :=
  inferInstanceAs (Decidable (front.toList <+: text.toList))

/-- An answer turns the line down. -/
def Reply.Refuses (r : Reply) : Prop := ∃ front ∈ refusals, Begins front r.out

instance (r : Reply) : Decidable r.Refuses :=
  inferInstanceAs (Decidable (∃ front ∈ refusals, Begins front r.out))

/-- An answer says what was done. -/
def Reply.Affirms (r : Reply) : Prop := ∃ front ∈ affirmations, Begins front r.out

theorem begins_refl (text : String) : Begins text text := List.prefix_refl _

/-- What is written later does not change how a text begins. -/
theorem Begins.append {front text : String} (h : Begins front text) (more : String) :
    Begins front (text ++ more) := by
  rw [Begins, String.toList_append]
  exact h.trans (List.prefix_append _ _)

theorem Begins.line {front text : String} (h : Begins front text) : Begins front (asLine text) :=
  h.append _

/-- Neither kind of beginning goes on as the other one. -/
theorem refusals_apart :
    ∀ front ∈ affirmations, ∀ refusal ∈ refusals,
      ¬ Begins refusal front ∧ ¬ Begins front refusal := by
  decide +kernel

/-- An answer that says what was done does not turn the line down. -/
theorem Reply.Affirms.not_refuses {r : Reply} (affirms : r.Affirms) : ¬ r.Refuses := by
  obtain ⟨front, mem, begins⟩ := affirms
  rintro ⟨refusal, mem', refused⟩
  obtain ⟨longer, shorter⟩ := refusals_apart front mem refusal mem'
  rcases List.prefix_or_prefix_of_prefix refused begins with within | within
  · exact longer within
  · exact shorter within

/-- A line that is not understood is turned down. -/
theorem Rejection.refuses (reason : Rejection) : (Reply.line reason.message).Refuses := by
  cases reason with
  | loadUsage format => cases format <;> decide +kernel
  | _ => decide +kernel

/-- The report of the registers begins with the program counter. -/
theorem begins_registersReport (m : Machine) : Begins "PC=" (registersReport m) := by
  unfold registersReport
  repeat apply Begins.append
  exact begins_refl _

/-- The report of a run begins with a star if it is not empty. -/
theorem begins_report (r : Run) : r.report = "" ∨ Begins "* " r.report := by
  unfold Run.report
  split
  · exact .inl rfl
  · exact .inr (by simp [Begins, asLine])
  · exact .inr (by simp [Begins, asLine])

/-- The report of the dialect begins with the reading of shifts. -/
theorem begins_dialectReport (d : Dialect) : Begins "shift=" (dialectReport d) := by
  rcases d with ⟨_ | _, _ | _, _ | _⟩ <;> decide +kernel

/-- The address of a memory cell begins with a zero. -/
theorem begins_hexWord (a : Address) : Begins "[0" ("[" ++ hexWord a.toWord) := by
  have inside := a.isLt
  have digits : (hexWord a.toWord).toList = hexDigits 4 a.val := by
    rw [hexWord, Address.toNat_toWord, toList_hex (by decide) (by omega)]
  -- the first of the four digits stands for nothing
  have first : hexDigit (a.val / 16 / 16 / 16 % 16) = '0' := by
    rw [show a.val / 16 / 16 / 16 % 16 = 0 by omega]
    decide
  simp [Begins, digits, hexDigits, first]

/-! ### Commands that only look -/

/-- A session that is as another one, but perhaps for the time that has been slept. -/
structure Session.Keeps (s after : Session) : Prop where
  machine : after.machine = s.machine
  rom : after.rom = s.rom
  breakpoints : after.breakpoints = s.breakpoints
  stepsPerFrame : after.stepsPerFrame = s.stepsPerFrame

theorem Session.Keeps.refl (s : Session) : s.Keeps s := ⟨rfl, rfl, rfl, rfl⟩

theorem Session.Keeps.of_eq {s after : Session} (same : after = s) : s.Keeps after := by
  rw [same]
  exact .refl s

/-- Time that passes changes nothing, whatever time it is then. -/
theorem Session.keeps_of_clock (s : Session) (clock : Nat) : s.Keeps { s with clock := clock } :=
  ⟨rfl, rfl, rfl, rfl⟩

namespace Command

/-- Whether a command only looks at the session, or lets time pass. -/
def inspects : Command → Bool
  | blank | rejected _ | quit | help | registers | dump _ _ | listBreaks | trace _
  | disassemble _ _ | screen | stack | showSpeed | showDialect | sleep _ => true
  | _ => false

/-- The names of the commands that only look, whatever operands they are given. -/
def inspectingNames : List String :=
  ["help", "h", "?", "p", "m", "bl", "t", "d", "screen", "stack", "sleep"]

/-- What holds of a command at each address, and of a line whose operand is none, holds of the
command on an operand. -/
theorem of_onAddress (P : Command → Prop) {command : Address → Command}
    (nowhere : P (.rejected .badAddress)) (everywhere : ∀ address, P (command address))
    (operand : List Char) : P (onAddress operand command) := by
  unfold onAddress
  split
  · exact everywhere _
  · exact nowhere

theorem inspects_dumpOf (operands : List (List Char)) : (dumpOf operands).inspects = true := by
  cases operands with
  | nil => rfl
  | cons place rest => exact of_onAddress (·.inspects = true) rfl (fun _ => rfl) place

theorem inspects_disassembleOf (operands : List (List Char)) :
    (disassembleOf operands).inspects = true := by
  cases operands with
  | nil => rfl
  | cons place rest => exact of_onAddress (·.inspects = true) rfl (fun _ => rfl) place

/-- A command with one of these names only looks. -/
theorem inspects_ofWords {name : String} (mem : name ∈ inspectingNames)
    (operands : List (List Char)) : (ofWords name operands).inspects = true := by
  simp only [inspectingNames, List.mem_cons, List.not_mem_nil, or_false] at mem
  rcases mem with rfl | rfl | rfl | rfl | rfl | rfl | rfl | rfl | rfl | rfl | rfl
  -- a dump and a disassembly may have an operand that is no address; the others do not look
  all_goals
    first
    | rfl
    | exact inspects_dumpOf operands
    | exact inspects_disassembleOf operands

/-- The number of steps in a frame is shown unless a positive one is given. -/
theorem inspects_speedOf {operands : List (List Char)} (none : numberOr operands.head? 0 ≤ 0) :
    (speedOf operands).inspects = true := by
  rw [speedOf, if_pos none]
  rfl

end Command

namespace Session

variable {files : Files} {s : Session} {command : Command}

/-- A command that only looks changes nothing. -/
theorem keeps_perform_of_inspects (s : Session) (files : Files)
    (looks : command.inspects = true) : s.Keeps (s.perform files command).1 := by
  cases command with
  | blank | rejected | quit | help | registers | dump | listBreaks | trace | disassemble | screen
  | stack | showSpeed | showDialect => exact .refl s
  | sleep => exact s.keeps_of_clock _
  | _ => cases looks

/-- The answer to a run says what was done, whether a fault stopped it or not. -/
theorem affirms_afterRun (s : Session) (r : Run) (clock : Nat) :
    (s.afterRun r clock).2.Affirms := by
  rcases begins_report r with silent | star
  · refine ⟨"PC=", by decide, ?_⟩
    rw [afterRun, silent, String.empty_append]
    exact begins_registersReport _
  · exact ⟨"* ", by decide, star.append _⟩

/-- A load changes nothing or says that it loaded a program. -/
theorem loadBytes_keeps_or_loads (s : Session) (tag : String) (bytes : List UInt8) :
    (s.loadBytes tag bytes).1 = s ∨
      Begins ("[" ++ tag ++ "] loaded ") (s.loadBytes tag bytes).2.out := by
  by_cases fits : bytes.length ≤ programCapacity
  · rw [loadBytes_of_fits s tag fits]
    exact .inr ((((begins_refl _).append _).append _).append _).line
  · exact .inl (fst_loadBytes_of_oversized s tag (Nat.lt_of_not_le fits))

theorem loadPath_keeps_or_affirms (s : Session) (files : Files) (format : RomFormat)
    (path : String) :
    (s.loadPath files format path).1 = s ∨ (s.loadPath files format path).2.Affirms := by
  unfold loadPath
  dsimp only
  split
  · rcases s.loadBytes_keeps_or_loads format.command (format.read files path []).bytes with
      kept | loaded
    · exact .inl kept
    · refine .inr ⟨_, ?_, loaded⟩
      cases format <;> decide
  · exact .inl rfl

theorem reload_keeps_or_affirms (s : Session) : s.reload.1 = s ∨ s.reload.2.Affirms := by
  rcases s.loadBytes_keeps_or_loads "reset" s.rom with kept | loaded
  · exact .inl kept
  · exact .inr ⟨"[reset] loaded ", by decide, loaded.append (registersReport _)⟩

/-- A command changes nothing, or its answer says what was done. -/
theorem keeps_or_affirms (s : Session) (files : Files) (command : Command) :
    s.Keeps (s.perform files command).1 ∨ (s.perform files command).2.Affirms := by
  by_cases looks : command.inspects = true
  · exact .inl (s.keeps_perform_of_inspects files looks)
  cases command with
  | step | frames | run | go => exact .inr (s.affirms_afterRun _ _)
  | poke address value =>
    exact .inr ⟨"[0", by decide, (((begins_hexWord address).append _).append _).line⟩
  | setBreak address => exact .inr ⟨"break at ", by decide, ((begins_refl _).append _).line⟩
  | removeBreak address =>
    -- the answer tells whether there was a breakpoint
    have answer : (s.perform files (.removeBreak address)).2.out =
        asLine ((if s.breakpoints.contains address then "removed " else "no breakpoint at ")
          ++ hexWord address.toWord) := rfl
    split at answer
    · refine .inr ⟨"removed ", by decide, ?_⟩
      rw [answer]
      exact ((begins_refl _).append _).line
    · refine .inr ⟨"no breakpoint at ", by decide, ?_⟩
      rw [answer]
      exact ((begins_refl _).append _).line
  | clearBreaks =>
    have begins : Begins "all " (asLine "all breakpoints removed") := by decide
    exact .inr ⟨"all ", by decide, begins⟩
  | key key down => exact .inr ⟨"Key ", by decide, (((begins_refl _).append _).append _).line⟩
  | setSpeed stepsPerFrame => exact .inr ⟨"ipf=", by decide, ((begins_refl _).append _).line⟩
  | toggle variation => exact .inr ⟨"shift=", by decide, begins_dialectReport _⟩
  | reset => exact s.reload_keeps_or_affirms.imp_left .of_eq
  | load format path => exact (s.loadPath_keeps_or_affirms files format path).imp_left .of_eq
  | _ => exact absurd rfl looks

/-- A command that is turned down changes nothing. -/
theorem keeps_perform_of_refuses (refuses : (s.perform files command).2.Refuses) :
    s.Keeps (s.perform files command).1 :=
  (s.keeps_or_affirms files command).resolve_right fun affirms => affirms.not_refuses refuses

/-! ### Commands that change one part -/

/-- A poke that is not turned down puts the byte of its second operand where the first one says. -/
theorem perform_pokeOf {operands : List (List Char)}
    (accepts : ¬ (s.perform files (.pokeOf operands)).2.Refuses) :
    ∃ place byte rest address, ∃ value : UInt8, operands = place :: byte :: rest ∧
      foldedAddress? place = some address ∧ hexNumber? byte 0xFF = some value.toNat ∧
      (s.perform files (.pokeOf operands)).1 =
        { s with machine := s.machine.poke address value } := by
  match operands with
  | [] | [_] => exact absurd (Rejection.refuses .pokeUsage) accepts
  | place :: byte :: rest =>
    -- the byte is looked at first, but nothing is written before the address is known
    cases small : hexNumber? byte 0xFF with
    | none =>
      simp only [Command.pokeOf, small] at accepts
      exact absurd (Rejection.refuses .pokeByte) accepts
    | some value =>
      cases folded : foldedAddress? place with
      | none =>
        simp only [Command.pokeOf, small, Command.onAddress, folded] at accepts
        exact absurd (Rejection.refuses .badAddress) accepts
      | some address =>
        have whole : (UInt8.ofNat value).toNat = value :=
          UInt8.toNat_ofNat_of_lt (Nat.lt_succ_of_le (hexNumber?_le small))
        refine ⟨place, byte, rest, address, .ofNat value, rfl, folded, ?_, ?_⟩
        · rw [whole, small]
        · simp only [Command.pokeOf, small, Command.onAddress, folded]
          rfl

/-- A key that is not turned down goes down unless the second operand is zero. -/
theorem perform_keyOf {operands : List (List Char)}
    (accepts : ¬ (s.perform files (.keyOf operands)).2.Refuses) :
    ∃ digit rest, ∃ key : Key, operands = digit :: rest ∧ hexNumber? digit 0xF = some key.val ∧
      (s.perform files (.keyOf operands)).1 =
        { s with machine := s.machine.withKey key.val (Command.numberOr rest.head? 1 != 0) } := by
  match operands with
  | [] => exact absurd (Rejection.refuses .keyUsage) accepts
  | digit :: rest =>
    cases small : hexNumber? digit 15 with
    | none =>
      simp only [Command.keyOf, small] at accepts
      exact absurd (Rejection.refuses .keyRange) accepts
    | some k =>
      have whole : (Fin.ofNat 16 k).val = k :=
        Nat.mod_eq_of_lt (Nat.lt_succ_of_le (hexNumber?_le small))
      refine ⟨digit, rest, Fin.ofNat 16 k, rfl, ?_, ?_⟩
      · rw [whole, small]
      · simp only [Command.keyOf, small]
        rfl

/-- A quirk that is not turned down is shown or, where it has a name, turned over. -/
theorem perform_toggleOf {operands : List (List Char)}
    (accepts : ¬ (s.perform files (.toggleOf operands)).2.Refuses) :
    operands = [] ∧ (s.perform files (.toggleOf operands)).1 = s ∨
      ∃ variation : Variation, operands.head? = some variation.name.toList ∧
        (s.perform files (.toggleOf operands)).1 =
          { s with machine :=
              { s.machine with dialect := s.machine.dialect.toggle variation } } := by
  match operands with
  | [] => exact .inl ⟨rfl, rfl⟩
  | name :: rest =>
    cases named : Variation.ofName? (String.ofList name) with
    | none =>
      simp only [Command.toggleOf, named] at accepts
      exact absurd (Rejection.refuses .variationUsage) accepts
    | some variation =>
      refine .inr ⟨variation, ?_, ?_⟩
      · rw [Variation.name_of_ofName? named, String.toList_ofList]
        rfl
      · simp only [Command.toggleOf, named]
        rfl

/-- A session that is as another one, but perhaps for its breakpoints. -/
def OnlyBreaks (s after : Session) : Prop :=
  ∃ breakpoints, after = { s with breakpoints := breakpoints }

/-- A new breakpoint changes nothing but the breakpoints. -/
theorem perform_setBreakOf (s : Session) (files : Files) (operands : List (List Char)) :
    s.OnlyBreaks (s.perform files (.setBreakOf operands)).1 := by
  cases operands with
  | nil => exact ⟨s.breakpoints, rfl⟩
  | cons place rest =>
    exact Command.of_onAddress (fun command => s.OnlyBreaks (s.perform files command).1)
      ⟨s.breakpoints, rfl⟩ (fun _ => ⟨_, rfl⟩) place

/-- Nor does the removal of one, or of all. -/
theorem perform_removeBreakOf (s : Session) (files : Files) (operands : List (List Char)) :
    s.OnlyBreaks (s.perform files (.removeBreakOf operands)).1 := by
  cases operands with
  | nil => exact ⟨[], rfl⟩
  | cons place rest =>
    exact Command.of_onAddress (fun command => s.OnlyBreaks (s.perform files command).1)
      ⟨s.breakpoints, rfl⟩ (fun _ => ⟨_, rfl⟩) place

/-- Another number of steps in a frame is one that is allowed. -/
theorem perform_speedOf (s : Session) (files : Files) {operands : List (List Char)}
    (some : 0 < Command.numberOr operands.head? 0) :
    ∃ steps, 1 ≤ steps ∧ steps ≤ 10000 ∧
      (s.perform files (.speedOf operands)).1 = { s with stepsPerFrame := steps } := by
  have bounds : 1 ≤ clampSteps (Command.numberOr operands.head? 0) ∧
      clampSteps (Command.numberOr operands.head? 0) ≤ 10000 := by
    unfold clampSteps maxStepsPerFrame
    split
    · omega
    · split <;> omega
  refine ⟨clampSteps (Command.numberOr operands.head? 0), bounds.1, bounds.2, ?_⟩
  rw [Command.speedOf, if_neg (Int.not_le.mpr some)]
  rfl

end Session

end Chip8
