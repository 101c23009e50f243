import Chip8.Proofs.Accounting
import Chip8.Proofs.Breakpoints
import Chip8.Proofs.Numerals
import Chip8.Proofs.Pacing

namespace Chip8

/-!
# Runs in real time

A run in real time takes the frames that have become due, sleeps until the next one is, and looks
again, until the machine has completed enough of them.  On a clock that only sleeping moves, every
look but the first one finds one frame due, so that the run is one frame after another.

* `countedFrames` — frames one after another, and the number of them.
* `FrameStops` — a frame after which there is no other one.
* `FramesEnd`, `framesEnd_countedFrames` — where frames one after another stop.
* `PacedLoop` — the loop of a run in real time, for as long as it goes on; it ends in one way only
  by `PacedLoop.unique`.
* `FrameClock.take_deadline` — what is due at the time for which a clock has waited.
* `exists_pacedLoop_of_due`, `exists_pacedLoop_runPaced` — the loop ends, and how.
* `real_time_run_agrees` — what the command for such a run does.
-/

/-! ### Where frames stop -/

section Frames

variable {breaks : Breakpoints} {stepsPerFrame count taken : Nat} {m : Machine} {r : Run}

/-- Frames one after another, and the number of them. -/
def countedFrames (breaks : Breakpoints) (stepsPerFrame : Nat) : Nat → Machine → Run × Nat
  | 0, m => ({ machine := m }, 0)
  | count + 1, m =>
    let o := m.runFrame stepsPerFrame
    match o.fault? with
    | some fault => ({ machine := o.machine, stop := .fault fault, notices := o.notices }, 1)
    | none =>
      if breaks.stopAt o.machine.pc then ({ machine := o.machine, stop := .breakpoint }, 1)
      else
        let (r, taken) := countedFrames breaks stepsPerFrame count o.machine
        (r, taken + 1)

/-- Counting frames does not change them. -/
theorem fst_countedFrames (breaks : Breakpoints) (stepsPerFrame count : Nat) (m : Machine) :
    (countedFrames breaks stepsPerFrame count m).1 = runFrames breaks stepsPerFrame count m := by
  induction count generalizing m with
  | zero => rfl
  | succ count ih =>
    unfold countedFrames runFrames
    dsimp only
    cases (m.runFrame stepsPerFrame).fault? with
    | some fault => rfl
    | none =>
      dsimp only
      split
      · rfl
      · exact ih (m.runFrame stepsPerFrame).machine

/-- The last of some frames is one after which there is no other: it reports a fault, or ends at a
breakpoint. -/
def FrameStops (breaks : Breakpoints) (stepsPerFrame : Nat) (m : Machine) (i : Nat) : Prop :=
  1 ≤ i ∧ ((m.lastFault? (.frame stepsPerFrame) i).isSome = true ∨
    breaks.Meets (m.times (.frame stepsPerFrame) i))

instance (breaks : Breakpoints) (stepsPerFrame : Nat) (m : Machine) (i : Nat) :
    Decidable (FrameStops breaks stepsPerFrame m i) :=
  inferInstanceAs (Decidable (_ ∧ _))

theorem frameStops_one :
    FrameStops breaks stepsPerFrame m 1 ↔
      (m.runFrame stepsPerFrame).fault?.isSome = true ∨
        breaks.Meets (m.runFrame stepsPerFrame).machine := by
  constructor
  · exact And.right
  · exact And.intro (Nat.le_refl 1)

theorem not_frameStops_one :
    ¬ FrameStops breaks stepsPerFrame m 1 ↔
      (m.runFrame stepsPerFrame).fault? = none ∧
        ¬ breaks.Meets (m.runFrame stepsPerFrame).machine := by
  rw [frameStops_one, not_or, Bool.not_eq_true, Option.isSome_eq_false_iff,
    Option.isNone_iff_eq_none]

/-- Where the first frame does not stop a run, the others do so where they would have without it. -/
theorem frameStops_succ (onward : ¬ FrameStops breaks stepsPerFrame m 1) (i : Nat) :
    FrameStops breaks stepsPerFrame m (i + 1) ↔
      FrameStops breaks stepsPerFrame (m.runFrame stepsPerFrame).machine i := by
  cases i with
  | zero =>
    constructor
    · intro stops
      exact absurd stops onward
    · rintro ⟨none, -⟩
      omega
  | succ i =>
    have calm : ((Operation.frame stepsPerFrame).perform m).fault? = none :=
      (not_frameStops_one.mp onward).1
    unfold FrameStops
    rw [Machine.lastFault?_succ calm, Machine.times_succ]
    constructor
    · rintro ⟨-, stops⟩
      exact ⟨Nat.succ_pos i, stops⟩
    · rintro ⟨-, stops⟩
      exact ⟨Nat.succ_pos (i + 1), stops⟩

/-- A first frame that stops a run is the only one. -/
theorem countedFrames_of_stops (stops : FrameStops breaks stepsPerFrame m 1) (count : Nat) :
    ∃ r, countedFrames breaks stepsPerFrame (count + 1) m = (r, 1) ∧
      r.machine = (m.runFrame stepsPerFrame).machine ∧ r.stop ≠ .finished := by
  rw [frameStops_one, ← Breakpoints.stopAt_iff] at stops
  unfold countedFrames
  dsimp only
  cases fault : (m.runFrame stepsPerFrame).fault? with
  | some fault => exact ⟨_, rfl, rfl, by simp⟩
  | none =>
    have meets := stops.resolve_left (by simp [fault])
    dsimp only
    rw [if_pos meets]
    exact ⟨_, rfl, rfl, by simp⟩

/-- After a first frame that does not stop a run, the others follow. -/
theorem countedFrames_of_onward (onward : ¬ FrameStops breaks stepsPerFrame m 1) (count : Nat) :
    countedFrames breaks stepsPerFrame (count + 1) m =
      ((countedFrames breaks stepsPerFrame count (m.runFrame stepsPerFrame).machine).1,
        (countedFrames breaks stepsPerFrame count (m.runFrame stepsPerFrame).machine).2 + 1) := by
  rw [not_frameStops_one, ← Breakpoints.stopAt_iff] at onward
  obtain ⟨calm, passes⟩ := onward
  rw [countedFrames, calm]
  dsimp only
  rw [if_neg passes]

/-- A frame that does not stop a run is counted by the machine. -/
theorem frames_of_onward (onward : ¬ FrameStops breaks stepsPerFrame m 1) :
    (m.runFrame stepsPerFrame).machine.frames = m.frames + 1 := by
  have counted := Machine.frames_perform (o := .frame stepsPerFrame) id m
  have completed : Operation.isCompletedFrame
      (.frame stepsPerFrame, (Operation.frame stepsPerFrame).perform m) = true := by
    show (m.runFrame stepsPerFrame).fault?.isNone = true
    rw [(not_frameStops_one.mp onward).1]
    rfl
  rwa [if_pos completed] at counted

/-- Of at most `count` frames some number is run, and they leave something behind. -/
structure FramesEnd (breaks : Breakpoints) (stepsPerFrame count : Nat) (m : Machine) (taken : Nat)
    (r : Run) : Prop where
  /-- They are run up to the first one that stops them, or else to the last. -/
  least : IsLeast {i | FrameStops breaks stepsPerFrame m i ∨ count ≤ i} taken
  /-- They leave the machine that they lead to. -/
  machine : r.machine = m.times (.frame stepsPerFrame) taken
  /-- They are finished unless one has stopped them, be it the last. -/
  finished : r.stop = .finished ↔ ¬ FrameStops breaks stepsPerFrame m taken

/-- No frames leave everything as it is. -/
theorem framesEnd_zero (m : Machine) :
    FramesEnd breaks stepsPerFrame 0 m 0 { machine := m } where
  least := ⟨.inr (Nat.le_refl 0), fun i _ => Nat.zero_le i⟩
  machine := rfl
  finished := by simp [FrameStops]

/-- The first frame may stop the others. -/
theorem framesEnd_one (stops : FrameStops breaks stepsPerFrame m 1)
    (left : r.machine = (m.runFrame stepsPerFrame).machine) (stopped : r.stop ≠ .finished) :
    FramesEnd breaks stepsPerFrame (count + 1) m 1 r where
  least := by
    refine ⟨.inl stops, ?_⟩
    rintro i (⟨some, -⟩ | enough)
    · exact some
    · exact Nat.le_trans (Nat.succ_pos count) enough
  machine := left
  finished := by simp [stops, stopped]

/-- Where it does not, the others end as they would have without it. -/
theorem FramesEnd.succ (onward : ¬ FrameStops breaks stepsPerFrame m 1)
    (rest : FramesEnd breaks stepsPerFrame count (m.runFrame stepsPerFrame).machine taken r) :
    FramesEnd breaks stepsPerFrame (count + 1) m (taken + 1) r where
  least := by
    have same (i : Nat) : (FrameStops breaks stepsPerFrame m (i + 1) ∨ count + 1 ≤ i + 1) ↔
        (FrameStops breaks stepsPerFrame (m.runFrame stepsPerFrame).machine i ∨ count ≤ i) := by
      rw [frameStops_succ onward, Nat.add_le_add_iff_right]
    obtain ⟨ended, first⟩ := rest.least
    refine ⟨(same taken).mpr ended, fun i ended => ?_⟩
    cases i with
    | zero =>
      rcases ended with ⟨none, -⟩ | enough
      · omega
      · omega
    | succ i => exact Nat.succ_le_succ (first ((same i).mp ended))
  machine := rest.machine
  finished := by rw [rest.finished, frameStops_succ onward]

/-- Frames always end in this way. -/
theorem framesEnd_countedFrames (breaks : Breakpoints) (stepsPerFrame count : Nat) (m : Machine) :
    FramesEnd breaks stepsPerFrame count m (countedFrames breaks stepsPerFrame count m).2
      (countedFrames breaks stepsPerFrame count m).1 := by
  induction count generalizing m with
  | zero => exact framesEnd_zero m
  | succ count ih =>
    by_cases stops : FrameStops breaks stepsPerFrame m 1
    · obtain ⟨r, counted, left, stopped⟩ := countedFrames_of_stops stops count
      rw [counted]
      exact framesEnd_one stops left stopped
    · rw [countedFrames_of_onward stops]
      exact (ih (m.runFrame stepsPerFrame).machine).succ stops

/-- Breakpoints do not matter unless one has stopped the frames. -/
theorem FramesEnd.least_nil (h : FramesEnd breaks stepsPerFrame count m taken r)
    (passes : (m.lastFault? (.frame stepsPerFrame) taken).isSome = true ∨
      ¬ breaks.Meets (m.times (.frame stepsPerFrame) taken)) :
    IsLeast {i | FrameStops [] stepsPerFrame m i ∨ count ≤ i} taken := by
  obtain ⟨ended, first⟩ := h.least
  constructor
  · rcases ended with ⟨some, fault | meets⟩ | enough
    · exact .inl ⟨some, .inl fault⟩
    · exact .inl ⟨some, .inl (passes.resolve_right (not_not_intro meets))⟩
    · exact .inr enough
  · rintro i (⟨some, fault | meets⟩ | enough)
    · exact first (.inl ⟨some, .inl fault⟩)
    · exact absurd meets (Breakpoints.not_meets_nil _)
    · exact first (.inr enough)

end Frames

/-! ### Frames when they are due -/

namespace FrameClock

variable {c : FrameClock} {now : Int}

/-- At the time for which a clock has waited one frame is due, and taking it starts the clock
anew. -/
theorem take_deadline (some : 0 < c.cap) (due : c.deadline = now) :
    c.take now = (1, c.restart now) := by
  have one : c.owed now = 1 := by
    simp [owed, due]
  have calm : ¬ c.Stalled now := by
    rw [Stalled, one]
    omega
  rw [take_of_not_stalled calm, one, ← due]
  simp [skip, restart]

/-- A clock that starts has a whole frame to wait. -/
theorem untilDue_restart (c : FrameClock) (now : Int) :
    (c.restart now).untilDue now = c.period := by
  show (now + c.period - now).toNat = c.period
  omega

end FrameClock

/-- The loop of a run in real time, with the number of frames it has run when it ends, however many
rounds that takes: while the machine has not completed enough frames, those that are due are run,
and unless one of them stops the run, time passes until the next one is due. -/
inductive PacedLoop (breaks : Breakpoints) (stepsPerFrame goal : Nat) :
    FrameClock → Nat → Machine → Nat → PacedRun → Prop where
  /-- The machine has completed enough frames. -/
  | reached {pace : FrameClock} {clock : Nat} {m : Machine} (enough : goal ≤ m.frames) :
      PacedLoop breaks stepsPerFrame goal pace clock m 0
        { run := { machine := m }, clock := clock }
  /-- A frame stops the run. -/
  | stopped {pace : FrameClock} {clock taken : Nat} {m : Machine} {r : Run} (more : m.frames < goal)
      (due : countedFrames breaks stepsPerFrame (pace.take clock).1 m = (r, taken))
      (stops : r.stop ≠ .finished) :
      PacedLoop breaks stepsPerFrame goal pace clock m taken { run := r, clock := clock }
  /-- After the frames that are due there is nothing to do for a while. -/
  | slept {pace : FrameClock} {clock taken later : Nat} {m : Machine} {r : Run} {p : PacedRun}
      (more : m.frames < goal)
      (due : countedFrames breaks stepsPerFrame (pace.take clock).1 m = (r, taken))
      (onward : r.stop = .finished)
      (rest : PacedLoop breaks stepsPerFrame goal (pace.take clock).2
        (clock + (pace.take clock).2.untilDue clock) r.machine later p) :
      PacedLoop breaks stepsPerFrame goal pace clock m (taken + later) p

/-- The loop ends in one way only. -/
theorem PacedLoop.unique {breaks : Breakpoints} {stepsPerFrame goal clock k k' : Nat}
    {pace : FrameClock} {m : Machine} {p p' : PacedRun}
    (h : PacedLoop breaks stepsPerFrame goal pace clock m k p)
    (h' : PacedLoop breaks stepsPerFrame goal pace clock m k' p') : k' = k ∧ p' = p := by
  induction h generalizing k' p' with
  | reached enough =>
    cases h' with
    | reached => exact ⟨rfl, rfl⟩
    | stopped more | slept more => exact absurd more (Nat.not_lt_of_le enough)
  | stopped more due stops =>
    cases h' with
    | reached enough => exact absurd more (Nat.not_lt_of_le enough)
    | stopped _ due' =>
      rw [due] at due'
      cases due'
      exact ⟨rfl, rfl⟩
    | slept _ due' onward =>
      rw [due] at due'
      cases due'
      exact absurd onward stops
  | slept more due onward _ ih =>
    cases h' with
    | reached enough => exact absurd more (Nat.not_lt_of_le enough)
    | stopped _ due' stops =>
      rw [due] at due'
      cases due'
      exact absurd onward stops
    | slept _ due' _ rest =>
      rw [due] at due'
      cases due'
      obtain ⟨rfl, rfl⟩ := ih rest
      exact ⟨rfl, rfl⟩

section Paced

variable {breaks : Breakpoints} {stepsPerFrame goal count rounds clock taken due : Nat}
  {m : Machine} {r : Run} {pace next : FrameClock}

/-- The last round finds enough frames completed. -/
theorem pacedRounds_of_reached (enough : goal ≤ m.frames) :
    pacedRounds breaks stepsPerFrame goal (rounds + 1) pace clock m =
      { run := { machine := m }, clock := clock } := by
  rw [pacedRounds, if_pos enough]

/-- Any other round runs the frames that are due. -/
theorem pacedRounds_of_more (more : m.frames < goal) (takes : pace.take clock = (due, next))
    (counted : countedFrames breaks stepsPerFrame due m = (r, taken)) :
    pacedRounds breaks stepsPerFrame goal (rounds + 1) pace clock m =
      if r.stop = .finished then
        pacedRounds breaks stepsPerFrame goal rounds next (clock + next.untilDue clock) r.machine
      else { run := r, clock := clock } := by
  have run : runFrames breaks stepsPerFrame due m = r := by
    rw [← fst_countedFrames, counted]
  rw [pacedRounds, if_neg (Nat.not_le_of_gt more), takes]
  dsimp only
  rw [run]

/-- How a run in real time ends whose first frame is due at some time. -/
structure PacedEnd (breaks : Breakpoints) (stepsPerFrame count period due : Nat) (m : Machine)
    (taken : Nat) (p : PacedRun) : Prop where
  /-- It is one frame after another. -/
  frames : FramesEnd breaks stepsPerFrame count m taken p.run
  /-- Once it is finished, time has passed until another frame would have been due. -/
  finished : p.run.stop = .finished → p.clock = due + period * taken
  /-- Where a frame has stopped it, no time has passed since that frame was due. -/
  stopped : p.run.stop ≠ .finished → p.clock + period = due + period * taken

/-- When a frame is due and nothing but sleeping moves the clock, the loop runs one frame after
another, and it has rounds enough. -/
theorem exists_pacedLoop_of_due (breaks : Breakpoints) (stepsPerFrame : Nat) (some : 0 < pace.cap)
    (onTime : pace.deadline = clock) (remain : m.frames + count = goal) :
    ∃ taken,
      PacedLoop breaks stepsPerFrame goal pace clock m taken
        (pacedRounds breaks stepsPerFrame goal (count + 1) pace clock m) ∧
      PacedEnd breaks stepsPerFrame count pace.period clock m taken
        (pacedRounds breaks stepsPerFrame goal (count + 1) pace clock m) := by
  -- on the frames that are left; after each of them the clock sleeps until the next one is due
  induction count generalizing pace clock m with
  | zero =>
    have enough : goal ≤ m.frames := Nat.le_of_eq remain.symm
    rw [pacedRounds_of_reached enough]
    exact ⟨0, .reached enough, framesEnd_zero m, fun _ => rfl, fun stopped => absurd rfl stopped⟩
  | succ count ih =>
    have more : m.frames < goal := by omega
    have takes := FrameClock.take_deadline some onTime
    have first : (pace.take clock).1 = 1 := congrArg Prod.fst takes
    by_cases stops : FrameStops breaks stepsPerFrame m 1
    · obtain ⟨r, counted, left, stopped⟩ := countedFrames_of_stops stops 0
      rw [pacedRounds_of_more more takes counted, if_neg stopped]
      refine ⟨1, .stopped more (by rwa [first]) stopped, framesEnd_one stops left stopped, ?_, ?_⟩
      · intro finished
        exact absurd finished stopped
      · intro _
        show clock + pace.period = clock + pace.period * 1
        rw [Nat.mul_one]
    · have counted : countedFrames breaks stepsPerFrame 1 m =
          ({ machine := (m.runFrame stepsPerFrame).machine }, 1) := countedFrames_of_onward stops 0
      have frames := frames_of_onward stops
      have sleeps := pace.untilDue_restart clock
      rw [pacedRounds_of_more more takes counted, if_pos rfl, sleeps]
      have some' : 0 < (pace.restart clock).cap := some
      have onTime' : (pace.restart clock).deadline = (clock + pace.period : Nat) := rfl
      have remain' : (m.runFrame stepsPerFrame).machine.frames + count = goal := by omega
      obtain ⟨taken, loop, ends⟩ := ih some' onTime' remain'
      have slept : PacedLoop breaks stepsPerFrame goal pace clock m (1 + taken) _ :=
        .slept more (by rw [first]; exact counted) rfl (by rw [takes, sleeps]; exact loop)
      rw [Nat.add_comm] at slept
      have later : clock + pace.period + pace.period * taken =
          clock + pace.period * (taken + 1) := by
        rw [Nat.mul_add, Nat.mul_one]
        omega
      refine ⟨taken + 1, slept, ends.frames.succ stops, ?_, ?_⟩
      · intro finished
        exact (ends.finished finished).trans later
      · intro stopped
        exact (ends.stopped stopped).trans later

/-- A run of some frames in real time is its loop, and its first frame is due after a period. -/
theorem exists_pacedLoop_runPaced (breaks : Breakpoints) (stepsPerFrame clock : Nat) (m : Machine)
    (some : 0 < count) :
    let period := FrameClock.periodOfRate FrameClock.defaultRate
    ∃ taken,
      PacedLoop breaks stepsPerFrame (m.frames + count)
        (.start FrameClock.defaultRate FrameClock.defaultCap clock) clock m taken
        (runPaced breaks stepsPerFrame count clock m) ∧
      PacedEnd breaks stepsPerFrame count period (clock + period) m taken
        (runPaced breaks stepsPerFrame count clock m) := by
  intro period
  generalize starts : FrameClock.start FrameClock.defaultRate FrameClock.defaultCap clock = pace
  have positive : 0 < period := FrameClock.periodOfRate_pos (by decide)
  have more : m.frames < m.frames + count := by omega
  have takes : pace.take clock = (0, pace) := by
    rw [← starts]
    exact (FrameClock.inPace_restart positive clock).take_eq
  have waits : pace.untilDue clock = period := by
    rw [← starts]
    exact FrameClock.untilDue_restart _ clock
  have onTime : pace.deadline = (clock + period : Nat) := by
    rw [← starts]
    rfl
  have ticks : pace.period = period := by
    rw [← starts]
    rfl
  have capped : 0 < pace.cap := by
    rw [← starts]
    exact (by decide : 0 < 5)
  -- nothing is due in the first round, so it only sleeps
  have none : countedFrames breaks stepsPerFrame 0 m = ({ machine := m }, 0) := rfl
  obtain ⟨taken, loop, ends⟩ := exists_pacedLoop_of_due breaks stepsPerFrame capped onTime rfl
  have slept : PacedLoop breaks stepsPerFrame _ pace clock m (0 + taken) _ :=
    .slept more (by rw [takes]; exact none) rfl (by rw [takes, waits]; exact loop)
  have first : pacedRounds breaks stepsPerFrame (m.frames + count) (count + 2) pace clock m = _ :=
    pacedRounds_of_more more takes none
  rw [if_pos rfl, waits] at first
  rw [Nat.zero_add, ← first] at slept
  rw [ticks, ← first] at ends
  unfold runPaced
  rw [starts]
  exact ⟨taken, slept, ends⟩

end Paced

/-! ### Commands -/

namespace Session

/-- The command for a run in real time. -/
theorem perform_go (files : Files) (s : Session) (operands : List (List Char)) :
    s.perform files (.ofWords "g" operands) =
      let r := runPaced s.breakpoints s.stepsPerFrame (Command.countOr operands.head? 10 * 60)
        s.clock s.machine
      s.afterRun r.run r.clock := rfl

/-- The command for frames, with their number in decimal. -/
theorem perform_frames (files : Files) (s : Session) {count : Nat} (some : 0 < count)
    (small : count ≤ 0x7FFFFFFF) :
    s.perform files (.ofWords "f" [(toString count).toList]) =
      s.afterRun (runFrames [] s.stepsPerFrame count s.machine) s.clock := by
  have command : Command.ofWords "f" [(toString count).toList] = .frames count := by
    show Command.frames (Command.countOr ([(toString count).toList].head?) 1) = .frames count
    rw [List.head?_cons, Command.countOr, Command.numberOr, operandNumber_toString small]
    simp [some]
  rw [command]
  rfl

end Session

/-- A run in real time agrees with frames one after another.  In any session, and for any number of
seconds, let there be sixty frames for each of them.  On a clock that only sleeping moves the loop
of the run ends, in one way only, after exactly as many frames as there are up to the first one that
reports a fault or ends at a breakpoint, or else after all; it leaves the machine that these frames
lead to, and nothing but the time changed besides.  It has slept a period for each of these frames
if one of them stopped it, be it the last one, and otherwise a period more than there are frames.
Unless a breakpoint stopped it, the command for as many frames leaves the same machine. -/
theorem real_time_run_agrees (files : Files) (s : Session) (operands : List (List Char)) :
    let seconds := Command.numberOr operands.head? 10
    let count := 60 * if 0 < seconds then seconds.toNat else 10
    let framed := s.machine.times (.frame s.stepsPerFrame)
    let fault? := s.machine.lastFault? (.frame s.stepsPerFrame)
    let stops := fun i => 1 ≤ i ∧ ((fault? i).isSome = true ∨ s.breakpoints.Meets (framed i))
    let after := (s.perform files (.ofWords "g" operands)).1
    ∃ k p,
      IsLeast {i : Nat | stops i ∨ count ≤ i} k ∧
      (∀ k' p', PacedLoop s.breakpoints s.stepsPerFrame (s.machine.frames + count)
        (.start 60 5 s.clock) s.clock s.machine k' p' ↔ k' = k ∧ p' = p) ∧
      after = { s with machine := p.run.machine, clock := p.clock } ∧
      after.machine = framed k ∧
      (stops k → after.clock = s.clock + 16666666 * k) ∧
      (¬ stops k → after.clock = s.clock + 16666666 * (count + 1)) ∧
      ((fault? k).isSome = true ∨ ¬ s.breakpoints.Meets (framed k) → count ≤ 0x7FFFFFFF →
        (s.perform files (.ofWords "f" [(toString count).toList])).1.machine = after.machine) := by
  intro seconds count framed fault? stops after
  have asked : Command.countOr operands.head? 10 * 60 = count := Nat.mul_comm _ 60
  have some : 0 < count := by
    show 0 < 60 * if 0 < seconds then seconds.toNat else 10
    split
    · omega
    · omega
  obtain ⟨k, loop, ends⟩ :=
    exists_pacedLoop_runPaced s.breakpoints s.stepsPerFrame s.clock s.machine some
  have period : FrameClock.periodOfRate FrameClock.defaultRate = 16666666 := by decide
  have go := s.perform_go files operands
  rw [asked] at go
  rw [period] at ends
  -- from here on only what is known about the run matters
  generalize runPaced s.breakpoints s.stepsPerFrame count s.clock s.machine = p at go loop ends
  have left : after = { s with machine := p.run.machine, clock := p.clock } := congrArg Prod.fst go
  have reached : after.machine = framed k := by
    rw [left]
    exact ends.frames.machine
  have slept : after.clock = p.clock := by rw [left]
  refine ⟨k, p, ends.frames.least, ?_, left, reached, ?_, ?_, ?_⟩
  · intro k' p'
    constructor
    · exact loop.unique
    · rintro ⟨rfl, rfl⟩
      exact loop
  · intro stopped
    have unfinished : p.run.stop ≠ .finished := fun finished =>
      ends.frames.finished.mp finished stopped
    have time := ends.stopped unfinished
    omega
  · intro onward
    have all : k = count :=
      Nat.le_antisymm (ends.frames.least.2 (.inr (Nat.le_refl count)))
        (ends.frames.least.1.resolve_left onward)
    have time := ends.finished (ends.frames.finished.mpr onward)
    rw [all] at time
    omega
  · -- the breakpoints have not mattered, so the frames stop where they do without any
    intro passes small
    have others := framesEnd_countedFrames [] s.stepsPerFrame count s.machine
    have same := (ends.frames.least_nil passes).unique others.least
    rw [s.perform_frames files some small, reached, same, ← fst_countedFrames]
    exact others.machine

/-- A program whose second frame reports a fault, run for a second.  With a breakpoint where the
first frame ends, the run ends with that frame; without one it ends with the fault, where sixty
frames of the program end as well. -/
theorem real_time_run_agrees_fault_in_second_frame :
    let files : Files := fun _ => none
    let game : List UInt8 := [0x70, 0x01, 0xFF, 0xFF]
    let loaded := (Machine.powerOn {} Machine.defaultTraceLimit default).load game
    let s : Session := { machine := loaded.machine, rom := game, stepsPerFrame := 1, clock := 7 }
    let guarded : Session := { s with breakpoints := [0x202] }
    let go (s : Session) := (s.perform files (.ofWords "g" ["1".toList])).1
    ((go guarded).machine = s.machine.times (.frame 1) 1 ∧ (go guarded).clock = 16666673) ∧
      ((go s).machine = s.machine.times (.frame 1) 2 ∧ (go s).clock = 33333339) ∧
      (s.perform files (.ofWords "f" [(toString 60).toList])).1.machine = (go s).machine := by
  intro files game loaded s guarded go
  have operand : Command.numberOr ["1".toList].head? 10 = 1 := by decide +kernel
  have meets : FrameStops guarded.breakpoints 1 s.machine 1 := by decide +kernel
  have onward : ¬ FrameStops s.breakpoints 1 s.machine 1 := by decide +kernel
  have faults : (s.machine.lastFault? (.frame 1) 2).isSome = true := by decide +kernel
  obtain ⟨k, p, least, -, -, machine, clock, -, -⟩ :=
    real_time_run_agrees files guarded ["1".toList]
  obtain ⟨k', p', least', -, -, machine', clock', -, agrees⟩ :=
    real_time_run_agrees files s ["1".toList]
  rw [operand] at least least' agrees
  have one : k = 1 := by
    apply Nat.le_antisymm (least.2 (.inl meets))
    rcases least.1 with ⟨some, -⟩ | enough
    · exact some
    · exact Nat.le_trans (by decide) enough
  have two : k' = 2 := by
    apply Nat.le_antisymm (least'.2 (.inl ⟨by decide, .inl faults⟩))
    apply Nat.lt_of_not_le
    intro early
    rcases least'.1 with stops | enough
    · have only : k' = 1 := Nat.le_antisymm early stops.1
      rw [only] at stops
      exact onward stops
    · exact absurd (Nat.le_trans enough early) (by decide)
  subst one two
  have slept : s.clock + 16666666 * 1 = 16666673 := by decide
  have slept' : s.clock + 16666666 * 2 = 33333339 := by decide
  exact ⟨⟨machine, (clock meets).trans slept⟩,
    ⟨machine', (clock' ⟨by decide, .inl faults⟩).trans slept'⟩, agrees (.inl faults) (by decide)⟩

end Chip8
