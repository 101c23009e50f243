import Chip8.Proofs.Options

namespace Chip8

/-!
# Command lines put together

A command line is taken in groups: a flag with the value after it, or an argument that stands
alone.  What a group asks for does not depend on the options so far, so a command line may be cut
after any group and taken in two parts.  Groups that ask for different things may change places.

* `Options.Group` — a group of arguments; `Options.parseGroups` — the options after some groups.
* `Options.exists_groups` — every list of arguments is made of groups, and perhaps a flag at the end
  that lacks its value; `Options.parse_groups_append` — groups are taken one after the other.
* `Options.Parsed` — the three ways in which a list of arguments can be taken.
* `Options.Request` — what groups can ask for; `Options.Group.exists_asks` says that a group that is
  accepted once asks for the same thing whatever the options are.
* `Options.Reorders` — the same groups in another order, in which repeats stay in theirs;
  `Options.parseGroups_of_reorders` says that they are accepted with the same options.
* `command_lines_compose` — all of that for lists of arguments.
-/

namespace Options

/-- Whether an argument takes the one after it as its value. -/
def takesValue (argument : String) : Bool := (valued? argument).isSome

/-- Arguments that are taken together. -/
inductive Group where
  /-- A flag and its value, whatever the value looks like. -/
  | valued (flag value : String) (takes : takesValue flag = true)
  /-- An argument that takes no value. -/
  | alone (argument : String) (takesNone : takesValue argument = false)
  deriving DecidableEq

/-- A place that is kept for one value, of which the last one counts. -/
inductive Slot where
  /-- The number that a setting is at. -/
  | number (s : Setting)
  /-- The program file. -/
  | romPath
  deriving DecidableEq

namespace Group

/-- The arguments of a group. -/
def arguments : Group → List String
  | valued flag value _ => [flag, value]
  | alone argument _ => [argument]

/-- The place that the value of a group is meant for, if it is meant for one. -/
def slot? : Group → Option Slot
  | valued flag _ _ => (Setting.ofFlag? flag).map .number
  | alone argument _ => if argument.toList.head? = some '-' then none else some .romPath

/-- The options after a group. -/
def take (o : Options) : Group → Except ArgumentComplaint Options
  | valued flag value takes => (valued? flag).get takes o value
  | alone argument _ => o.plain argument

end Group

/-- The options after some groups, and the complaint, if any. -/
def parseGroups (o : Options) : List Group → Options × Option ArgumentComplaint
  | [] => (o, none)
  | g :: groups =>
    match g.take o with
    | .ok o => parseGroups o groups
    | .error complaint => (o, some complaint)

variable {o o₁ : Options} {g h : Group} {groups groups' before after : List Group}
  {args rest : List String} {argument flag value : String} {complaint : ArgumentComplaint}

/-! ### Groups one after the other -/

theorem takesValue_iff :
    takesValue argument = true ↔ argument ∈ ["--ipf", "--scale", "--trace", "--quirk"] := by
  constructor
  · intro takes
    obtain ⟨take, found⟩ := Option.isSome_iff_exists.mp takes
    rcases valued?_eq_some found with ⟨s, rfl, -⟩ | ⟨rfl, -⟩
    · cases s <;> simp [Setting.flag]
    · simp [variationFlag]
  · intro mem
    simp only [List.mem_cons, List.not_mem_nil, or_false] at mem
    rcases mem with rfl | rfl | rfl | rfl <;> decide

theorem Group.take_valued {take : Options → String → Except ArgumentComplaint Options}
    (found : valued? flag = some take) (takes : takesValue flag = true) :
    (Group.valued flag value takes).take o = take o value := by
  have same : (valued? flag).get takes = take := Option.get_of_mem takes found
  rw [Group.take, same]

/-- The first group is taken, and then the arguments after it. -/
theorem parse_group (o : Options) (g : Group) (rest : List String) :
    parse o (g.arguments ++ rest) =
      match g.take o with
      | .ok o => parse o rest
      | .error complaint => (o, some complaint) := by
  cases g with
  | valued flag value takes =>
    obtain ⟨take, found⟩ := Option.isSome_iff_exists.mp takes
    show parse o (flag :: value :: rest) = _
    rw [Group.take_valued found, parse.eq_def]
    cases taken : take o value with
    | ok o₁ => simp only [found, taken]
    | error complaint => simp only [found, taken]
  | alone argument takesNone =>
    have found : valued? argument = none := by simpa [takesValue] using takesNone
    show parse o (argument :: rest) = _
    rw [Group.take, parse.eq_def]
    cases taken : o.plain argument with
    | ok o₁ => simp only [found, taken]
    | error complaint => simp only [found, taken]

/-- A flag at the end lacks its value. -/
theorem parse_flag (o : Options) (takes : takesValue flag = true) :
    parse o [flag] = (o, some (.missingValue flag)) := by
  obtain ⟨take, found⟩ := Option.isSome_iff_exists.mp takes
  rw [parse.eq_def]
  simp only [found]

/-- Groups are taken one after the other, and then the arguments after them. -/
theorem parse_groups_append (o : Options) (groups : List Group) (rest : List String) :
    parse o (groups.flatMap Group.arguments ++ rest) =
      match parseGroups o groups with
      | (o, none) => parse o rest
      | (o, some complaint) => (o, some complaint) := by
  induction groups generalizing o with
  | nil => rfl
  | cons g groups ih =>
    rw [List.flatMap_cons, List.append_assoc, parse_group, parseGroups]
    cases g.take o with
    | ok o₁ => exact ih o₁
    | error complaint => rfl

/-- Groups alone are taken one after the other. -/
theorem parse_groups (o : Options) (groups : List Group) :
    parse o (groups.flatMap Group.arguments) = parseGroups o groups := by
  have whole := parse_groups_append o groups []
  rw [List.append_nil] at whole
  rw [whole]
  rcases parseGroups o groups with ⟨o₁, _ | complaint⟩
  · rfl
  · rfl

/-- Every list of arguments is made of groups, and perhaps a flag that lacks its value. -/
theorem exists_groups (args : List String) :
    ∃ (groups : List Group) (rest : List String), args = groups.flatMap Group.arguments ++ rest ∧
      (rest = [] ∨ ∃ flag, takesValue flag = true ∧ rest = [flag]) := by
  match args with
  | [] => exact ⟨[], [], rfl, .inl rfl⟩
  | argument :: args =>
    cases takes : takesValue argument with
    | false =>
      obtain ⟨groups, rest, rfl, ends⟩ := exists_groups args
      exact ⟨.alone argument takes :: groups, rest, rfl, ends⟩
    | true =>
      match args with
      | [] => exact ⟨[], [argument], rfl, .inr ⟨argument, takes, rfl⟩⟩
      | value :: args =>
        obtain ⟨groups, rest, rfl, ends⟩ := exists_groups args
        exact ⟨.valued argument value takes :: groups, rest, rfl, ends⟩

/-- How a list of arguments is taken from some options on. -/
inductive Parsed (o : Options) : List String → Options × Option ArgumentComplaint → Prop where
  /-- All of it is groups, and they are accepted. -/
  | accepted {groups : List Group} {o₁ : Options} (taken : parseGroups o groups = (o₁, none)) :
      Parsed o (groups.flatMap Group.arguments) (o₁, none)
  /-- Groups come first, and there is a complaint about them. -/
  | refused {groups : List Group} {rest : List String} {o₁ : Options}
      {complaint : ArgumentComplaint} (taken : parseGroups o groups = (o₁, some complaint)) :
      Parsed o (groups.flatMap Group.arguments ++ rest) (o₁, some complaint)
  /-- Groups come first, and they are accepted, but the flag after them lacks its value. -/
  | lacking {groups : List Group} {flag : String} {o₁ : Options}
      (taken : parseGroups o groups = (o₁, none)) (takes : takesValue flag = true) :
      Parsed o (groups.flatMap Group.arguments ++ [flag]) (o₁, some (.missingValue flag))

theorem parsed (o : Options) (args : List String) : Parsed o args (parse o args) := by
  obtain ⟨groups, rest, rfl, ends⟩ := exists_groups args
  rw [parse_groups_append]
  rcases taken : parseGroups o groups with ⟨o₁, _ | complaint⟩
  · rcases ends with rfl | ⟨flag, takes, rfl⟩
    · rw [List.append_nil]
      exact .accepted taken
    · show Parsed o _ (parse o₁ [flag])
      rw [parse_flag o₁ takes]
      exact .lacking taken takes
  · exact .refused taken

/-- A complaint about a group is never that its value is missing. -/
theorem Group.take_ne_missingValue (refused : g.take o = .error complaint) (flag : String) :
    complaint ≠ .missingValue flag := by
  rintro rfl
  cases g with
  | valued flag' value takes =>
    obtain ⟨take, found⟩ := Option.isSome_iff_exists.mp takes
    rw [Group.take_valued found] at refused
    rcases valued?_eq_some found with ⟨s, -, rfl⟩ | ⟨-, rfl⟩
    · simp only [assignText] at refused
      grind
    · simp only [enable] at refused
      grind
  | alone argument =>
    simp only [Group.take, plain] at refused
    grind

theorem parseGroups_ne_missingValue (refused : parseGroups o groups = (o₁, some complaint))
    (flag : String) : complaint ≠ .missingValue flag := by
  induction groups generalizing o with
  | nil => cases refused
  | cons g groups ih =>
    rw [parseGroups] at refused
    cases taken : g.take o with
    | ok o₂ =>
      rw [taken] at refused
      exact ih refused
    | error complaint' =>
      rw [taken] at refused
      cases refused
      exact Group.take_ne_missingValue taken flag

/-! ### Arguments one after the other -/

/-- After arguments that are accepted, others are taken on top of their options. -/
theorem parse_append_of_accepted (accepted : parse o args = (o₁, none)) (rest : List String) :
    parse o (args ++ rest) = parse o₁ rest := by
  have case := parsed o args
  rw [accepted] at case
  cases case with
  | accepted taken => rw [parse_groups_append, taken]

/-- After arguments with a complaint, nothing more is looked at, unless it is the value that is
missing. -/
theorem parse_append_of_refused (refused : parse o args = (o₁, some complaint))
    (other : ∀ flag, complaint ≠ .missingValue flag) (rest : List String) :
    parse o (args ++ rest) = (o₁, some complaint) := by
  have case := parsed o args
  rw [refused] at case
  cases case with
  | refused taken => rw [List.append_assoc, parse_groups_append, taken]
  | lacking => exact absurd rfl (other _)

/-- A value is missing just if a flag that takes one is the last argument, after others that are
accepted. -/
theorem parse_eq_missingValue_iff :
    parse o args = (o₁, some (.missingValue flag)) ↔ takesValue flag = true ∧
      ∃ before, args = before ++ [flag] ∧ parse o before = (o₁, none) := by
  constructor
  · intro missing
    have case := parsed o args
    rw [missing] at case
    cases case with
    | refused taken => exact absurd rfl (parseGroups_ne_missingValue taken flag)
    | @lacking groups _ _ taken takes =>
      exact ⟨takes, _, rfl, (parse_groups o groups).trans taken⟩
  · rintro ⟨takes, before, rfl, accepted⟩
    rw [parse_append_of_accepted accepted, parse_flag o₁ takes]

/-! ### Requests -/

/-- What a group can ask for. -/
inductive Request where
  /-- A number for a setting. -/
  | number (s : Setting) (n : Int)
  /-- The less common reading on a point of the dialect. -/
  | variation (v : Variation)
  /-- Only help. -/
  | help
  /-- The program file as text of base sixteen. -/
  | hexText
  /-- A program file. -/
  | romPath (path : String)

namespace Request

/-- The options with a request granted. -/
def apply (r : Request) (o : Options) : Options :=
  match r with
  | number s n => o.assign s n
  | variation v => { o with dialect := o.dialect.enable v }
  | help => { o with help := true }
  | hexText => { o with format := .hexText }
  | romPath path => { o with romPath := path }

/-- The place that the value of a request is meant for, if it is meant for one. -/
def slot? : Request → Option Slot
  | number s _ => some (.number s)
  | romPath _ => some .romPath
  | variation _ | help | hexText => none

/-- Requests may be granted in either order unless their values are meant for one place. -/
theorem apply_comm {r r' : Request} (apart : ∀ slot, r.slot? = some slot → r'.slot? ≠ some slot)
    (o : Options) : r'.apply (r.apply o) = r.apply (r'.apply o) := by
  cases r
  case number s n =>
    cases r'
    case number t k =>
      have other : s ≠ t := by
        rintro rfl
        exact apart _ rfl rfl
      cases s <;> cases t <;> first | rfl | exact absurd rfl other
    all_goals cases s <;> rfl
  case variation v =>
    cases r'
    case number s n => cases s <;> rfl
    case variation w => simp only [apply, Dialect.enable_comm]
    all_goals rfl
  case romPath path =>
    cases r'
    case number s n => cases s <;> rfl
    case romPath path' => exact absurd rfl (apart _ rfl)
    all_goals rfl
  all_goals
    cases r'
    case number s n => cases s <;> rfl
    all_goals rfl

end Request

/-- A group asks for something, whatever the options are. -/
structure Group.Asks (g : Group) (r : Request) : Prop where
  /-- Both are meant for the same place. -/
  slot : g.slot? = r.slot?
  /-- The group is accepted with what is asked for. -/
  take : ∀ o, g.take o = .ok (r.apply o)

/-- A group that is accepted once asks for something. -/
theorem Group.exists_asks (accepted : g.take o = .ok o₁) : ∃ r, g.Asks r := by
  cases g with
  | valued flag value takes =>
    obtain ⟨take, found⟩ := Option.isSome_iff_exists.mp takes
    rw [Group.take_valued found] at accepted
    rcases valued?_eq_some found with ⟨s, rfl, rfl⟩ | ⟨rfl, rfl⟩
    · obtain ⟨n, read, allowed, -⟩ := assignText_eq_ok accepted
      refine ⟨.number s n, ?_, ?_⟩
      · rw [Group.slot?, Setting.ofFlag?_flag]
        rfl
      · intro o
        rw [Group.take_valued found, assignText, read]
        exact if_pos allowed
    · obtain ⟨v, rfl, -⟩ := enable_eq_ok accepted
      refine ⟨.variation v, rfl, ?_⟩
      intro o
      rw [Group.take_valued found, enable, Variation.ofName?_name]
      rfl
  | alone argument takesNone =>
    have accepted : o.plain argument = .ok o₁ := accepted
    unfold plain at accepted
    split at accepted
    · next help =>
      refine ⟨.help, ?_, fun o => if_pos help⟩
      rcases help with rfl | rfl <;> rfl
    · next noHelp =>
      split at accepted
      · next hexText =>
        subst hexText
        exact ⟨.hexText, rfl, fun o => rfl⟩
      · next noFormat =>
        split at accepted
        · cases accepted
        · next noFlag =>
          refine ⟨.romPath argument, if_neg noFlag, ?_⟩
          intro o
          rw [Group.take, plain, if_neg noHelp, if_neg noFormat, if_neg noFlag]
          rfl

/-- Where groups are accepted, each of them asks for something. -/
theorem exists_asks_of_parseGroups (accepted : parseGroups o groups = (o₁, none)) :
    ∀ g ∈ groups, ∃ r, g.Asks r := by
  induction groups generalizing o with
  | nil => simp
  | cons g groups ih =>
    rw [parseGroups] at accepted
    cases taken : g.take o with
    | error complaint =>
      rw [taken] at accepted
      cases accepted
    | ok o₂ =>
      rw [taken] at accepted
      exact List.forall_mem_cons.mpr ⟨Group.exists_asks taken, ih accepted⟩

/-! ### Other orders -/

/-- The same groups in another order, in which those that are meant for one place keep theirs. -/
structure Reorders (groups groups' : List Group) : Prop where
  /-- The groups are the same. -/
  perm : groups.Perm groups'
  /-- Those for one place follow each other as before. -/
  repeats : ∀ slot, groups'.filter (·.slot? = some slot) = groups.filter (·.slot? = some slot)

/-- The first group stands somewhere in the other order, and no group before it there is meant for
the same place. -/
theorem Reorders.exists_cut (reorders : Reorders (g :: groups) groups') :
    ∃ before after, groups' = before ++ g :: after ∧
      (∀ h ∈ before, ∀ slot, h.slot? = some slot → g.slot? ≠ some slot) ∧
      Reorders groups (before ++ after) := by
  have somewhere : g ∈ groups' := reorders.perm.mem_iff.mp List.mem_cons_self
  obtain ⟨before, after, rfl, first⟩ := List.eq_append_cons_of_mem somewhere
  have order (slot : Slot) := reorders.repeats slot
  simp only [List.filter_append, List.filter_cons, decide_eq_true_eq] at order
  have nothing (slot : Slot) (place : g.slot? = some slot) :
      before.filter (·.slot? = some slot) = [] := by
    have order := order slot
    rw [if_pos place, if_pos place] at order
    cases earlier : before.filter (·.slot? = some slot) with
    | nil => rfl
    | cons e rest =>
      -- the first group for the place is the same in both orders
      rw [earlier] at order
      have inside : e ∈ before.filter (·.slot? = some slot) := by simp [earlier]
      rw [(List.cons.inj order).1] at inside
      exact absurd (List.mem_filter.mp inside).1 first
  refine ⟨before, after, rfl, ?_, ?_, ?_⟩
  · intro h mem slot place same
    have inside : h ∈ before.filter (·.slot? = some slot) := by simp [mem, place]
    rw [nothing slot same] at inside
    cases inside
  · exact (reorders.perm.trans List.perm_middle).cons_inv
  · intro slot
    have order := order slot
    rw [List.filter_append]
    by_cases place : g.slot? = some slot
    · rw [if_pos place, if_pos place, nothing slot place] at order
      rw [nothing slot place]
      exact List.tail_eq_of_cons_eq order
    · rw [if_neg place, if_neg place] at order
      exact order

/-- A group that is accepted may be taken before others that are not meant for its place. -/
theorem parseGroups_move {r : Request} (asks : g.Asks r)
    (others : ∀ h ∈ before, ∃ r, h.Asks r)
    (apart : ∀ h ∈ before, ∀ slot, h.slot? = some slot → g.slot? ≠ some slot) (o : Options) :
    parseGroups o (before ++ g :: after) = parseGroups o (g :: (before ++ after)) := by
  induction before generalizing o with
  | nil => rfl
  | cons h before ih =>
    obtain ⟨⟨r', asks'⟩, others⟩ := List.forall_mem_cons.mp others
    obtain ⟨away, apart⟩ := List.forall_mem_cons.mp apart
    have swap : r.apply (r'.apply o) = r'.apply (r.apply o) := by
      apply Request.apply_comm
      rw [← asks.slot, ← asks'.slot]
      exact away
    have onward := ih others apart (r'.apply o)
    simp only [List.cons_append, parseGroups, asks.take, asks'.take] at onward ⊢
    rw [onward, swap]

/-- Groups that are accepted are accepted in another order, with the same options. -/
theorem parseGroups_of_reorders (reorders : Reorders groups groups')
    (all : ∀ g ∈ groups, ∃ r, g.Asks r) (o : Options) :
    parseGroups o groups' = parseGroups o groups := by
  induction groups generalizing groups' o with
  | nil => rw [List.nil_perm.mp reorders.perm]
  | cons g groups ih =>
    obtain ⟨before, after, rfl, apart, rest⟩ := reorders.exists_cut
    obtain ⟨⟨r, asks⟩, all⟩ := List.forall_mem_cons.mp all
    have others : ∀ h ∈ before, ∃ r, h.Asks r := by
      intro h mem
      exact all h (rest.perm.mem_iff.mpr (List.mem_append_left after mem))
    rw [parseGroups_move asks others apart]
    simp only [parseGroups, asks.take]
    exact ih rest all (r.apply o)

end Options

open Options in
/-- Command lines are taken from left to right.  After arguments that are accepted, others are taken
as on top of their options.  After arguments with a complaint nothing more is looked at, and the
complaint stays; except that the value of a flag may be missing, and this is so just if the flag is
the last argument, after others that are accepted.  A command line that is accepted is made of
groups: flags with their values, and arguments that stand alone.  In any other order of the groups
it is accepted with the same options, as long as repeats of a setting that keeps one value, and of
the program file, stay in their order. -/
theorem command_lines_compose (o : Options) (args : List String) :
    (∀ o₁, parse o args = (o₁, none) → ∀ rest, parse o (args ++ rest) = parse o₁ rest) ∧
    (∀ o₁ complaint, parse o args = (o₁, some complaint) →
      (∀ flag, complaint ≠ .missingValue flag) →
        ∀ rest, parse o (args ++ rest) = (o₁, some complaint)) ∧
    (∀ o₁ flag, parse o args = (o₁, some (.missingValue flag)) ↔
      flag ∈ ["--ipf", "--scale", "--trace", "--quirk"] ∧
        ∃ before, args = before ++ [flag] ∧ parse o before = (o₁, none)) ∧
    ∀ o₁, parse o args = (o₁, none) →
      (∃ groups : List Group, groups.flatMap Group.arguments = args) ∧
      ∀ groups groups' : List Group, groups.flatMap Group.arguments = args →
        Reorders groups groups' → parse o (groups'.flatMap Group.arguments) = (o₁, none) := by
  refine ⟨?_, ?_, ?_, ?_⟩
  · intro o₁ accepted rest
    exact parse_append_of_accepted accepted rest
  · intro o₁ complaint refused other rest
    exact parse_append_of_refused refused other rest
  · intro o₁ flag
    rw [← takesValue_iff]
    exact parse_eq_missingValue_iff
  · intro o₁ accepted
    refine ⟨?_, ?_⟩
    · have case := parsed o args
      rw [accepted] at case
      cases case with
      | @accepted groups => exact ⟨groups, rfl⟩
    · rintro groups groups' rfl reorders
      rw [parse_groups] at accepted ⊢
      rw [parseGroups_of_reorders reorders (exists_asks_of_parseGroups accepted), accepted]

open Options in
/-- Two numbers for the same setting stay in their order while a program file, a point of the
dialect and a flag that stands alone move; and what comes after an unknown flag is not looked at. -/
theorem command_lines_compose_two_numbers :
    let args := ["--ipf", "20", "rom", "--quirk", "jump", "--ipf", "0x1F", "--hex"]
    let moved := ["--hex", "--quirk", "jump", "--ipf", "20", "--ipf", "0x1F", "rom"]
    let o : Options :=
      { romPath := "rom", format := .hexText, stepsPerFrame := 31
        dialect := { jumpReadsNamed := true } }
    (parse {} args = (o, none) ∧ parse {} moved = (o, none)) ∧
    (parse {} (args ++ ["-x", "--scale"]) = (o, some (.unknownOption "-x")) ∧
      parse {} (args ++ ["--scale"]) = (o, some (.missingValue "--scale"))) := by
  intro args moved o
  have accepted : parse {} args = (o, none) := by decide +kernel
  have unknown : parse {} (args ++ ["-x"]) = (o, some (.unknownOption "-x")) := by decide +kernel
  let steps : Group := .valued "--ipf" "20" (by decide)
  let stepsAgain : Group := .valued "--ipf" "0x1F" (by decide)
  let point : Group := .valued "--quirk" "jump" (by decide)
  let format : Group := .alone "--hex" (by decide)
  let file : Group := .alone "rom" (by decide)
  have reorders : Reorders [steps, file, point, stepsAgain, format]
      [format, point, steps, stepsAgain, file] := by
    refine ⟨by decide, ?_⟩
    rintro (s | _)
    · cases s <;> decide
    · decide
  obtain ⟨-, -, -, orders⟩ := command_lines_compose {} args
  obtain ⟨-, stops, -, -⟩ := command_lines_compose {} (args ++ ["-x"])
  obtain ⟨-, -, lacks, -⟩ := command_lines_compose {} (args ++ ["--scale"])
  refine ⟨⟨accepted, (orders o accepted).2 _ _ rfl reorders⟩, ?_, ?_⟩
  · exact stops o _ unknown (by simp) ["--scale"]
  · exact (lacks o "--scale").mpr ⟨by simp, args, rfl, accepted⟩

end Chip8
