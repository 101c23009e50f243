import Chip8.Options
import Chip8.Proofs.Numerals
import Mathlib.Data.Int.ModEq

namespace Chip8

/-!
# Numbers on the command line

Three flags take a number.  Each is read from the argument after the flag, checked, and kept until
the same flag comes up again; so in the end the last one counts.  The size of a pixel is kept in
fewer bits than it is checked in, and may come out as another number.

* `Options.Accepts` — command lines that are accepted, argument by argument, with what each of
  them does; `Options.accepts_of_parse` says that there are no others.
* `Options.number`, `Setting.kept` — the number that a setting is at, and what is kept of a number
  that is given to it.
* `Options.LastCounts` — a setting is as the last argument after its flag says;
  `Options.Accepts.lastCounts` says so of every command line that is accepted.
* `accepted_numbers_as_written` — the numbers of an accepted command line are those that were
  written, for the size of a pixel just if it is below `2 ^ 31`.
-/

/-- What is kept of a number that is given to a setting. -/
def Setting.kept (s : Setting) (n : Int) : Int :=
  match s with
  | stepsPerFrame => n
  | scale => n.bmod 0x100000000
  | traceLimit => n

/-- No two settings have the same flag. -/
theorem Setting.flag_injective : Function.Injective Setting.flag := by
  intro s t same
  cases s <;> cases t <;> first | rfl | exact absurd same (by decide)

namespace Options

/-- The number that a setting is at. -/
def number (o : Options) : Setting → Int
  | .stepsPerFrame => o.stepsPerFrame
  | .scale => o.scale
  | .traceLimit => o.traceLimit

/-- Arguments that are accepted on top of some options, and the options after them. -/
inductive Accepts : Options → List String → Options → Prop where
  /-- No arguments change nothing. -/
  | nil (o : Options) : Accepts o [] o
  /-- A setting, and a number that it accepts. -/
  | number {o o' : Options} {s : Setting} {value : String} {n : Int} {rest : List String}
      (read : signedNumber? value.toList = some n) (allowed : s.accepts n = true)
      (others : Accepts (o.assign s n) rest o') : Accepts o (s.flag :: value :: rest) o'
  /-- A point of the dialect. -/
  | variation {o o' : Options} {v : Variation} {rest : List String}
      (others : Accepts { o with dialect := o.dialect.enable v } rest o') :
      Accepts o (variationFlag :: v.name :: rest) o'
  /-- An argument that stands alone. -/
  | alone {o o₁ o' : Options} {argument : String} {rest : List String}
      (noValue : valued? argument = none) (taken : o.plain argument = .ok o₁)
      (others : Accepts o₁ rest o') : Accepts o (argument :: rest) o'

variable {o o₁ o' : Options} {s : Setting} {args chunk rest : List String} {argument value : String}

/-! ### Accepted command lines -/

/-- A flag takes a value if it is the flag of a setting, or the one for points of the dialect. -/
theorem valued?_eq_some {take : Options → String → Except ArgumentComplaint Options}
    (h : valued? argument = some take) :
    (∃ s : Setting, argument = s.flag ∧ take = fun o value => o.assignText s value) ∨
      argument = variationFlag ∧ take = enable := by
  unfold valued? at h
  split at h
  · next s found =>
    cases h
    have flag : s.flag = argument := by simpa using List.find?_some found
    exact .inl ⟨s, flag.symm, rfl⟩
  · split at h
    · next flag =>
      cases h
      exact .inr ⟨flag, rfl⟩
    · cases h

/-- The flag of a setting takes a value. -/
theorem valued?_flag (s : Setting) : valued? s.flag ≠ none := by
  cases s <;> simp [valued?, Setting.ofFlag?, Setting.all, Setting.flag]

/-- A value that a setting takes is a number that it accepts. -/
theorem assignText_eq_ok (h : o.assignText s value = .ok o₁) :
    ∃ n, signedNumber? value.toList = some n ∧ s.accepts n = true ∧ o₁ = o.assign s n := by
  unfold assignText at h
  split at h
  · next n read =>
    split at h
    · next allowed =>
      cases h
      exact ⟨n, read, allowed, rfl⟩
    · cases h
  · cases h

/-- A name that is taken is that of a point. -/
theorem enable_eq_ok (h : o.enable value = .ok o₁) :
    ∃ v : Variation, value = v.name ∧ o₁ = { o with dialect := o.dialect.enable v } := by
  unfold enable at h
  split at h
  · next v found =>
    cases h
    have name : v.name = value := by simpa using List.find?_some found
    exact ⟨v, name.symm, rfl⟩
  · cases h

/-- A command line without a complaint is accepted. -/
theorem accepts_of_parse (h : parse o args = (o', none)) : Accepts o args o' := by
  fun_induction parse o args with
  | case1 o =>
    cases h
    exact .nil _
  | case2 => cases h
  | case3 o argument take value rest flag o₁ taken ih =>
    rcases valued?_eq_some flag with ⟨s, rfl, rfl⟩ | ⟨rfl, rfl⟩
    · obtain ⟨n, read, allowed, rfl⟩ := assignText_eq_ok taken
      exact .number read allowed (ih h)
    · obtain ⟨v, rfl, rfl⟩ := enable_eq_ok taken
      exact .variation (ih h)
  | case4 => cases h
  | case5 o argument rest noValue o₁ taken ih => exact .alone noValue taken (ih h)
  | case6 => cases h

/-! ### What settings are at -/

/-- What is kept of a number is what the setting is at. -/
theorem number_assign_self {n : Int} (allowed : s.accepts n = true) :
    (o.assign s n).number s = s.kept n := by
  cases s with
  | stepsPerFrame =>
    simp only [Setting.accepts, Bool.and_eq_true, decide_eq_true_eq] at allowed
    show ((n.toNat : Nat) : Int) = n
    omega
  | scale => rfl
  | traceLimit =>
    simp only [Setting.accepts, decide_eq_true_eq] at allowed
    show ((n.toNat : Nat) : Int) = n
    omega

/-- A setting does not change when a number is given to another one. -/
theorem number_assign_of_ne {t : Setting} (other : t ≠ s) (n : Int) :
    (o.assign t n).number s = o.number s := by
  cases t <;> cases s <;> first | rfl | exact absurd rfl other

/-- An argument that stands alone changes no setting. -/
theorem number_plain (taken : o.plain argument = .ok o₁) (s : Setting) :
    o₁.number s = o.number s := by
  unfold plain at taken
  split at taken
  · cases taken
    cases s <;> rfl
  · split at taken
    · cases taken
      cases s <;> rfl
    · split at taken
      · cases taken
      · cases taken
        cases s <;> rfl

/-- A setting is as the last argument after its flag says, and as before if there is no flag. -/
structure LastCounts (o o' : Options) (s : Setting) (args : List String) : Prop where
  /-- Without the flag the setting stays. -/
  absent : s.flag ∉ args → o'.number s = o.number s
  /-- After the last flag there is a number that the setting accepts, and it is kept. -/
  last : ∀ before rest, args = before ++ s.flag :: rest → s.flag ∉ rest →
    ∃ value n, rest.head? = some value ∧ signedNumber? value.toList = some n ∧
      s.accepts n = true ∧ o'.number s = s.kept n

/-- Arguments without the flag that do not change the setting may come first. -/
theorem LastCounts.append (noFlag : s.flag ∉ chunk) (same : o₁.number s = o.number s)
    (h : LastCounts o₁ o' s rest) : LastCounts o o' s (chunk ++ rest) where
  absent nowhere := by
    rw [List.mem_append, not_or] at nowhere
    rw [h.absent nowhere.2, same]
  last before after cut isLast := by
    rcases List.append_eq_append_iff.mp cut with ⟨between, -, later⟩ | ⟨between, inside, start⟩
    · exact h.last between after later isLast
    · -- the flag is not in the first arguments, so nothing of them stands after it
      cases between with
      | nil => exact h.last [] after start.symm isLast
      | cons flag between =>
        cases start
        exact absurd (by simp [inside]) noFlag

/-- A value that is a number is no flag of a setting. -/
theorem ne_flag_of_number {n : Int} (read : signedNumber? value.toList = some n) (s : Setting) :
    s.flag ≠ value := by
  rintro rfl
  have noNumber : signedNumber? s.flag.toList = none := by
    cases s <;> decide
  rw [noNumber] at read
  cases read

/-- On an accepted command line the last argument after a flag counts. -/
theorem Accepts.lastCounts (h : Accepts o args o') (s : Setting) : LastCounts o o' s args := by
  induction h with
  | nil o =>
    refine ⟨fun _ => rfl, ?_⟩
    intro before rest cut
    cases before <;> cases cut
  | @number o o' t value n rest read allowed _ ih =>
    have notValue := ne_flag_of_number read s
    by_cases same : t = s
    · subst same
      have later : LastCounts (o.assign t n) o' t ([value] ++ rest) :=
        ih.append (by simpa using notValue) rfl
      refine ⟨?_, ?_⟩
      · intro nowhere
        exact absurd (List.mem_cons_self ..) nowhere
      · intro before after cut isLast
        rcases List.cons_eq_append_iff.mp cut with ⟨-, here⟩ | ⟨between, -, there⟩
        · cases here
          refine ⟨value, n, rfl, read, allowed, ?_⟩
          rw [later.absent isLast, number_assign_self allowed]
        · exact later.last between after there isLast
    · have notFlag : s.flag ≠ t.flag := fun flag => same (Setting.flag_injective flag.symm)
      have noFlag : s.flag ∉ [t.flag, value] := by simp [notFlag, notValue]
      exact ih.append noFlag (number_assign_of_ne same n)
  | @variation o o' v rest _ ih =>
    have noFlag : s.flag ∉ [variationFlag, v.name] := by
      cases s <;> cases v <;> decide
    exact ih.append noFlag (by cases s <;> rfl)
  | @alone o o₁ o' argument rest noValue taken _ ih =>
    have noFlag : s.flag ∉ [argument] := by
      rw [List.mem_singleton]
      rintro rfl
      exact valued?_flag s noValue
    exact ih.append noFlag (number_plain taken s)

/-- There is a last flag if there is any. -/
theorem exists_last (flag : argument ∈ args) :
    ∃ before rest, args = before ++ argument :: rest ∧ argument ∉ rest := by
  obtain ⟨after, before, cut, first⟩ := List.eq_append_cons_of_mem (List.mem_reverse.mpr flag)
  refine ⟨before.reverse, after.reverse, ?_, ?_⟩
  · rw [← List.reverse_reverse args, cut]
    simp
  · rwa [List.mem_reverse]

/-- What is kept of a size is the size just if it is below `2 ^ 31`. -/
theorem kept_scale_iff {n : Int} (allowed : Setting.scale.accepts n = true) :
    (1 ≤ Setting.scale.kept n ∧ Setting.scale.kept n = n) ↔ n < 0x80000000 := by
  simp only [Setting.accepts, decide_eq_true_eq] at allowed
  show (1 ≤ n.bmod 0x100000000 ∧ n.bmod 0x100000000 = n) ↔ n < 0x80000000
  have above : n.bmod 0x100000000 < 0x80000000 := Int.bmod_lt (by decide)
  constructor
  · rintro ⟨-, same⟩
    rwa [same] at above
  · intro small
    have same : n.bmod 0x100000000 = n := Int.bmod_eq_of_le (by omega) (by omega)
    rw [same]
    exact ⟨allowed, rfl⟩

end Options

open Options in
/-- The numbers of an accepted command line are those that were written.  The number of steps in a
frame lies between one and ten thousand.  A setting without its flag is as at the start.  Otherwise
there is a value after the last of its flags, this value denotes a number within 64 bits, and the
setting is at that number; but the size of a pixel is what 32 bits with a sign keep of the number,
so that it is the number, and at least one, just if the number is below `2 ^ 31`. -/
theorem accepted_numbers_as_written {args : List String} {o : Options}
    (accepted : Options.parse {} args = (o, none)) :
    (1 ≤ o.stepsPerFrame ∧ o.stepsPerFrame ≤ 10000) ∧
    ∀ s : Setting,
      (s.flag ∉ args → o.number s = ({} : Options).number s) ∧
      ∀ before rest, args = before ++ s.flag :: rest → s.flag ∉ rest →
        ∃ value n, rest.head? = some value ∧ Numeral.Denotes value.toList n ∧
          (-0x8000000000000000 ≤ n ∧ n < 0x8000000000000000) ∧
          (s ≠ .scale → o.number s = n) ∧
          (s = .scale → o.scale = n.bmod 0x100000000 ∧
            ((1 ≤ o.scale ∧ o.scale = n) ↔ n < 0x80000000)) := by
  have counts := (accepts_of_parse accepted).lastCounts
  refine ⟨?_, ?_⟩
  · -- the number is the one at the start, or one that the setting accepts
    by_cases flag : Setting.stepsPerFrame.flag ∈ args
    · obtain ⟨before, rest, cut, isLast⟩ := exists_last flag
      obtain ⟨_, n, -, -, allowed, holds⟩ := (counts .stepsPerFrame).last before rest cut isLast
      have steps : (o.stepsPerFrame : Int) = n := holds
      simp only [Setting.accepts, Bool.and_eq_true, decide_eq_true_eq] at allowed
      have most : maxStepsPerFrame = 10000 := rfl
      omega
    · have steps : (o.stepsPerFrame : Int) = 10 := (counts .stepsPerFrame).absent flag
      omega
  · intro s
    refine ⟨(counts s).absent, ?_⟩
    intro before rest cut isLast
    obtain ⟨value, n, next, read, allowed, holds⟩ := (counts s).last before rest cut isLast
    obtain ⟨denotes, low, high⟩ := signedNumber?_eq_some_iff.mp read
    refine ⟨value, n, next, denotes, ⟨low, high⟩, ?_, ?_⟩
    · intro other
      rw [holds]
      cases s with
      | scale => exact absurd rfl other
      | stepsPerFrame | traceLimit => rfl
    · rintro rfl
      have kept : o.scale = Setting.scale.kept n := holds
      rw [kept]
      exact ⟨rfl, kept_scale_iff allowed⟩

open Options in
/-- Steps in base sixteen and then in base eight, of which the last count, a size with a blank and
a sign before it, and no flag for the timeline. -/
theorem accepted_numbers_as_written_two_bases :
    let args := ["--ipf", "0x1F", "--quirk", "shift", "rom", "--scale", " +8", "--ipf", "0017"]
    let o : Options := (Options.parse {} args).1
    (1 ≤ o.stepsPerFrame ∧ o.stepsPerFrame ≤ 10000) ∧ o.number .traceLimit = 4096 ∧
      (Numeral.Denotes "0017".toList 15 ∧ o.stepsPerFrame = 15) ∧
      ∃ n, Numeral.Denotes " +8".toList n ∧ ((1 ≤ o.scale ∧ o.scale = n) ↔ n < 0x80000000) := by
  intro args o
  have accepted : Options.parse {} args = (o, none) := by decide +kernel
  obtain ⟨range, settings⟩ := accepted_numbers_as_written accepted
  have steps : o.stepsPerFrame = 15 := by decide +kernel
  obtain ⟨value, n, next, denotes, -, holds, -⟩ := (settings .stepsPerFrame).2
    ["--ipf", "0x1F", "--quirk", "shift", "rom", "--scale", " +8"] ["0017"] rfl (by decide)
  obtain ⟨size, k, next', denotes', -, -, kept⟩ := (settings .scale).2
    ["--ipf", "0x1F", "--quirk", "shift", "rom"] [" +8", "--ipf", "0017"] rfl (by decide)
  cases next
  cases next'
  have fifteen : n = 15 := by
    rw [← holds (by decide)]
    show (o.stepsPerFrame : Int) = 15
    rw [steps]
    rfl
  subst fifteen
  exact ⟨range, (settings .traceLimit).1 (by decide), ⟨denotes, steps⟩, k, denotes', (kept rfl).2⟩

/-- The size `2 ^ 32` is accepted, and nothing is kept of it. -/
theorem accepted_scale_not_as_written :
    let o : Options := (Options.parse {} ["--scale", "4294967296"]).1
    Options.parse {} ["--scale", "4294967296"] = (o, none) ∧
      Numeral.Denotes "4294967296".toList 4294967296 ∧ ¬ 1 ≤ o.scale ∧ o.scale ≠ 4294967296 := by
  intro o
  have read : signedNumber? "4294967296".toList = some 4294967296 := by decide +kernel
  exact ⟨by decide +kernel, (signedNumber?_eq_some_iff.mp read).1, by decide +kernel,
    by decide +kernel⟩

end Chip8
