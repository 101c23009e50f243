import Chip8.FrameClock

namespace Chip8

/-!
# Keeping pace

A frame clock is asked for frames at times that it does not choose.  However often it is asked, it
hands out one frame for every whole period since its start, and what it does not hand out is lost
only where more frames were due at once than its cap; after such a stall it starts anew.

* `FrameClock.InPace` — the next frame is due within a period from a time on;
  `FrameClock.inPace_take` says that so it is after every time at which frames were taken.
* `FrameClock.owed_eq` — the frames that are due, counted in whole periods.
* `FrameClock.Stalled` — more frames are due than the cap.
* `FrameClock.take_of_not_stalled`, `FrameClock.owed_add_owed`, `FrameClock.owed_of_stalled` — what
  one call hands out and what it leaves to be handed out later.
* `FrameClock.framesTaken_le_owed`, `FrameClock.framesTaken_eq_owed_iff` — what all calls together
  hand out.
* `frames_keep_pace` — all of that in one statement.
-/

namespace FrameClock

variable {c : FrameClock} {start now last : Int} {times : List Int}

/-! ### Calls one after another -/

/-- The clock after frames were taken at some times, one after another. -/
def after (c : FrameClock) (times : List Int) : FrameClock :=
  times.foldl (fun c now => (c.take now).2) c

/-- How many frames are taken at some times together. -/
def framesTaken (c : FrameClock) : List Int → Nat
  | [] => 0
  | now :: times => (c.take now).1 + (c.take now).2.framesTaken times

/-- More frames are due at a time than are taken at once. -/
def Stalled (c : FrameClock) (now : Int) : Prop := c.cap < c.owed now

/-- Frames are taken at some times, and at none of them are more due than are taken. -/
def NeverStalled (c : FrameClock) : List Int → Prop
  | [] => True
  | now :: times => ¬ c.Stalled now ∧ (c.take now).2.NeverStalled times

instance (c : FrameClock) (now : Int) : Decidable (c.Stalled now) :=
  inferInstanceAs (Decidable (_ < _))

instance decidableNeverStalled (c : FrameClock) : (times : List Int) →
    Decidable (c.NeverStalled times)
  | [] => inferInstanceAs (Decidable True)
  | now :: times =>
    have := decidableNeverStalled (c.take now).2 times
    inferInstanceAs (Decidable (_ ∧ _))

/-- The frames taken at some times since a start are never more than whole periods have gone by
up to the last of the times, and they are as many just if the clock was never stalled. -/
def KeepsPace (c : FrameClock) (period : Nat) (start : Int) (times : List Int) : Prop :=
  let whole := (times.getLastD start - start) / period
  (c.framesTaken times : Int) ≤ whole ∧ ((c.framesTaken times : Int) = whole ↔ c.NeverStalled times)

/-! ### What stays the same -/

@[simp] theorem period_restart (c : FrameClock) (now : Int) : (c.restart now).period = c.period :=
  rfl

@[simp] theorem period_take (c : FrameClock) (now : Int) : (c.take now).2.period = c.period := by
  unfold take
  dsimp only
  split
  · rfl
  · rfl

@[simp] theorem cap_take (c : FrameClock) (now : Int) : (c.take now).2.cap = c.cap := by
  unfold take
  dsimp only
  split
  · rfl
  · rfl

theorem period_after (c : FrameClock) (times : List Int) : (c.after times).period = c.period := by
  induction times generalizing c with
  | nil => rfl
  | cons now times ih => exact (ih (c.take now).2).trans (c.period_take now)

theorem cap_after (c : FrameClock) (times : List Int) : (c.after times).cap = c.cap := by
  induction times generalizing c with
  | nil => rfl
  | cons now times ih => exact (ih (c.take now).2).trans (c.cap_take now)

/-- A restart forgets everything but how long a frame is and how many are taken at once. -/
theorem restart_after (c : FrameClock) (times : List Int) (now : Int) :
    (c.after times).restart now = c.restart now := by
  simp only [restart, period_after, cap_after]

/-- Frames have a length if there are at most as many in a second as there are nanoseconds. -/
theorem periodOfRate_pos {rate : Nat} (h : rate ≤ 1000000000) : 0 < periodOfRate rate := by
  have divisor : 0 < max 1 rate := by omega
  have whole : max 1 rate ≤ 1000000000 := by omega
  exact Nat.div_pos whole divisor

/-! ### Frames in whole periods -/

/-- The next frame is due after a time, and within a period from it. -/
def InPace (c : FrameClock) (now : Int) : Prop :=
  now < c.deadline ∧ c.deadline ≤ now + c.period

/-- The time a period before the next frame is due. -/
def origin (c : FrameClock) : Int := c.deadline - c.period

theorem InPace.origin_le (h : c.InPace now) : c.origin ≤ now := by
  have within := h.2
  unfold origin
  omega

/-- While a clock is in pace, nothing is due. -/
theorem InPace.owed_eq_zero (h : c.InPace now) : c.owed now = 0 := if_pos h.1

/-- Where nothing is due, nothing happens. -/
theorem InPace.take_eq (h : c.InPace now) : c.take now = (0, c) := by
  have none := h.owed_eq_zero
  unfold take
  rw [none]
  simp

theorem InPace.untilDue_bounds (h : c.InPace now) :
    0 < c.untilDue now ∧ c.untilDue now ≤ c.period := by
  obtain ⟨ahead, within⟩ := h
  unfold untilDue
  omega

/-- The clock that has some more frames behind it. -/
def skip (c : FrameClock) (count : Nat) : FrameClock :=
  { c with deadline := c.deadline + c.period * count }

theorem origin_skip (c : FrameClock) (count : Nat) :
    (c.skip count).origin = c.origin + c.period * count := by
  show c.deadline + c.period * count - c.period = c.deadline - c.period + c.period * count
  omega

theorem origin_restart (c : FrameClock) (now : Int) : (c.restart now).origin = now := by
  show now + c.period - c.period = now
  omega

/-- A clock that starts is in pace. -/
theorem inPace_restart (positive : 0 < c.period) (now : Int) : (c.restart now).InPace now := by
  have deadline : (c.restart now).deadline = now + c.period := rfl
  have period := c.period_restart now
  unfold InPace
  omega

section Owed

variable (positive : 0 < c.period) (reached : c.origin ≤ now)
include positive reached

/-- The frames that are due are the whole periods since a period before the next one. -/
theorem owed_eq : (c.owed now : Int) = (now - c.origin) / c.period := by
  have nonzero : (c.period : Int) ≠ 0 := by omega
  unfold origin at reached ⊢
  unfold owed
  split
  · next early =>
    symm
    apply Int.ediv_eq_zero_of_lt
    · omega
    · omega
  · next due =>
    have split : now - (c.deadline - c.period) = now - c.deadline + c.period * 1 := by
      rw [Int.mul_one]
      omega
    have behind : ((now - c.deadline).toNat : Int) = now - c.deadline :=
      Int.toNat_of_nonneg (by omega)
    rw [split, Int.add_mul_ediv_left _ _ nonzero]
    push_cast
    rw [behind]

/-- The periods that are due are over, and the one after them is not. -/
theorem owed_bounds :
    c.origin + c.period * c.owed now ≤ now ∧ now < c.origin + c.period * c.owed now + c.period := by
  have nonzero : (c.period : Int) ≠ 0 := by omega
  have below := Int.ediv_mul_le (now - c.origin) nonzero
  have above := Int.lt_ediv_add_one_mul_self (now - c.origin) (b := c.period) (by omega)
  rw [← owed_eq positive reached] at below above
  rw [Int.add_mul, Int.one_mul] at above
  rw [Int.mul_comm]
  omega

end Owed

/-! ### One call -/

/-- Where no more frames are due than the cap, all are taken, and the next one is due a period
after the last of them. -/
theorem take_of_not_stalled (h : ¬ c.Stalled now) :
    c.take now = (c.owed now, c.skip (c.owed now)) := by
  unfold take
  exact if_neg h

/-- Where more are due, the cap is taken, and the clock starts anew. -/
theorem take_of_stalled (h : c.Stalled now) : c.take now = (c.cap, c.restart now) := by
  unfold take
  exact if_pos h

/-- No call hands out more frames than the cap. -/
theorem taken_le_cap (c : FrameClock) (now : Int) : (c.take now).1 ≤ c.cap := by
  by_cases stalled : c.Stalled now
  · exact Nat.le_of_eq (congrArg Prod.fst (take_of_stalled stalled))
  · rw [take_of_not_stalled stalled]
    exact Nat.le_of_not_lt stalled

/-- After a call the clock is in pace. -/
theorem inPace_take (positive : 0 < c.period) (reached : c.origin ≤ now) :
    (c.take now).2.InPace now := by
  by_cases stalled : c.Stalled now
  · rw [take_of_stalled stalled]
    exact inPace_restart positive now
  · rw [take_of_not_stalled stalled]
    obtain ⟨passed, ahead⟩ := owed_bounds positive reached
    unfold origin at passed ahead
    constructor
    · show now < c.deadline + c.period * c.owed now
      omega
    · show c.deadline + c.period * c.owed now ≤ now + c.period
      omega

/-- What is due at a later time is what is due now, and what will be due then once this is
taken. -/
theorem owed_add_owed (positive : 0 < c.period) (reached : c.origin ≤ now) (le : now ≤ last) :
    c.owed now + (c.skip (c.owed now)).owed last = c.owed last := by
  have nonzero : (c.period : Int) ≠ 0 := by omega
  have passed := (owed_bounds positive reached).1
  have origin := c.origin_skip (c.owed now)
  have onward : ((c.skip (c.owed now)).owed last : Int) =
      (last - (c.skip (c.owed now)).origin) / c.period := owed_eq positive (by omega)
  have whole : (c.owed last : Int) = (last - c.origin) / c.period := owed_eq positive (by omega)
  have split : last - c.origin =
      last - (c.origin + c.period * c.owed now) + c.period * c.owed now := by omega
  rw [split, Int.add_mul_ediv_left _ _ nonzero, ← origin] at whole
  omega

/-- After a stall, fewer frames can be handed out up to a later time than are due then. -/
theorem owed_of_stalled (positive : 0 < c.period) (reached : c.origin ≤ now) (le : now ≤ last)
    (stalled : c.Stalled now) : c.cap + (c.restart now).owed last < c.owed last := by
  have origin := c.origin_restart now
  have before := owed_eq positive reached
  have onward : ((c.restart now).owed last : Int) = (last - (c.restart now).origin) / c.period :=
    owed_eq positive (by omega)
  have whole : (c.owed last : Int) = (last - c.origin) / c.period := owed_eq positive (by omega)
  -- parts of periods before and after the stall may add up to a whole one, but not the reverse
  have parts := Int.ediv_add_ediv_le_add_ediv (x := now - c.origin) (y := last - now)
    (z := c.period) (by omega)
  rw [show now - c.origin + (last - now) = last - c.origin by omega] at parts
  rw [origin] at onward
  have capped : c.cap < c.owed now := stalled
  omega

/-! ### All calls together -/

/-- Times that do not go back end no earlier than they begin. -/
theorem le_getLastD (ordered : (start :: times).Pairwise (· ≤ ·)) :
    start ≤ times.getLastD start := by
  rcases List.mem_cons.mp (List.getLastD_mem_cons (l := times) (a := start)) with same | later
  · exact Int.le_of_eq same.symm
  · exact List.rel_of_pairwise_cons ordered later

section Calls

variable (positive : 0 < c.period) (pace : c.InPace start)
  (ordered : (start :: times).Pairwise (· ≤ ·))
include positive pace ordered

/-- A clock that is in pace at a start hands out, at times from there on, at most the frames that
are due at the last of them, and all of these just if it is never stalled. -/
theorem framesTaken_law :
    c.framesTaken times ≤ c.owed (times.getLastD start) ∧
      (c.framesTaken times = c.owed (times.getLastD start) ↔ c.NeverStalled times) := by
  induction times generalizing c start with
  | nil =>
    have none : c.owed start = 0 := pace.owed_eq_zero
    exact ⟨Nat.zero_le _, by simp [framesTaken, NeverStalled, none]⟩
  | cons now times ih =>
    rw [List.pairwise_cons] at ordered
    obtain ⟨first, ordered⟩ := ordered
    have reached : c.origin ≤ now := Int.le_trans pace.origin_le (first now (by simp))
    have le := le_getLastD ordered
    have positive' : 0 < (c.take now).2.period := by rwa [period_take]
    obtain ⟨most, all⟩ := ih positive' (inPace_take positive reached) ordered
    rw [List.getLastD_cons, framesTaken, NeverStalled]
    by_cases stalled : c.Stalled now
    · -- what the stall has lost is not made up for
      have lost := owed_of_stalled positive reached le stalled
      rw [take_of_stalled stalled] at most ⊢
      dsimp only at most ⊢
      refine ⟨by omega, ?_⟩
      constructor
      · intro whole
        omega
      · rintro ⟨calm, -⟩
        exact absurd stalled calm
    · have kept := owed_add_owed positive reached le
      rw [take_of_not_stalled stalled] at most all ⊢
      dsimp only at most all ⊢
      refine ⟨by omega, ?_⟩
      rw [← all]
      constructor
      · intro whole
        exact ⟨stalled, by omega⟩
      · rintro ⟨-, whole⟩
        omega

/-- The times at which frames were taken leave the clock in pace at the last of them. -/
theorem inPace_after : (c.after times).InPace (times.getLastD start) := by
  induction times generalizing c start with
  | nil => exact pace
  | cons now times ih =>
    rw [List.pairwise_cons] at ordered
    obtain ⟨first, ordered⟩ := ordered
    have reached : c.origin ≤ now := Int.le_trans pace.origin_le (first now (by simp))
    have positive' : 0 < (c.take now).2.period := by rwa [period_take]
    rw [List.getLastD_cons]
    exact ih positive' (inPace_take positive reached) ordered

end Calls

/-- From a start on, the clock keeps pace. -/
theorem keepsPace_restart (positive : 0 < c.period) (ordered : (start :: times).Pairwise (· ≤ ·)) :
    (c.restart start).KeepsPace c.period start times := by
  have origin := c.origin_restart start
  have le := le_getLastD ordered
  have owed : ((c.restart start).owed (times.getLastD start) : Int) =
      (times.getLastD start - (c.restart start).origin) / c.period := owed_eq positive (by omega)
  obtain ⟨most, all⟩ :=
    framesTaken_law (c := c.restart start) positive (inPace_restart positive start) ordered
  rw [origin] at owed
  unfold KeepsPace
  dsimp only
  rw [← owed, ← all]
  exact ⟨by omega, by omega⟩

end FrameClock

/-- A frame clock neither drifts nor runs ahead.  Take any clock of up to 10^9 frames in a second,
whatever it was asked before, restart it and ask it at times that do not go back.  Each call hands
out at most the cap and leaves the next frame due after now and within a period, so that a second
call at the same time hands out nothing.  All calls together hand out at most the whole periods
since the restart, and exactly these just if no call has found more frames due than the cap; after a
call that has, the same holds with the time of the call in place of that of the restart.  So,
without such calls, how many frames there were depends on the last time only. -/
theorem frames_keep_pace {rate : Nat} (slow : rate ≤ 1000000000) (cap made : Int)
    (earlier : List Int) {start : Int} {times : List Int}
    (ordered : (start :: times).Pairwise (· ≤ ·)) :
    let period := 1000000000 / max 1 rate
    let c := ((FrameClock.start rate cap made).after earlier).restart start
    (∀ before now later, times = before ++ now :: later →
      let asked := c.after before
      let left := (asked.take now).2
      ((asked.take now).1 : Int) ≤ max 1 cap ∧
        (now < left.deadline ∧ left.deadline ≤ now + period) ∧
        (0 < left.untilDue now ∧ left.untilDue now ≤ period) ∧
        left.take now = (0, left) ∧
        (asked.Stalled now → left.KeepsPace period now later)) ∧
      c.KeepsPace period start times ∧
      ∀ others, (start :: others).Pairwise (· ≤ ·) →
        others.getLastD start = times.getLastD start → c.NeverStalled times →
        c.NeverStalled others → c.framesTaken others = c.framesTaken times := by
  intro period c
  have positive : 0 < period := FrameClock.periodOfRate_pos slow
  have restarted : c = (FrameClock.start rate cap made).restart start :=
    FrameClock.restart_after _ earlier start
  have ticks : c.period = period := by
    rw [restarted]
    rfl
  have most : (c.cap : Int) = max 1 cap := by
    have whole : ((max 1 cap).toNat : Int) = max 1 cap := Int.toNat_of_nonneg (by omega)
    rw [restarted]
    exact whole
  have begins : c.InPace start := by
    rw [restarted]
    exact FrameClock.inPace_restart positive start
  have law (times : List Int) (ordered : (start :: times).Pairwise (· ≤ ·)) :
      c.KeepsPace period start times := by
    rw [restarted]
    exact FrameClock.keepsPace_restart positive ordered
  refine ⟨?_, law times ordered, ?_⟩
  · rintro before now later rfl asked left
    rw [← List.cons_append, List.pairwise_append] at ordered
    obtain ⟨ordered, onward, across⟩ := ordered
    have ticks' : asked.period = period := (c.period_after before).trans ticks
    have reached : asked.origin ≤ now := by
      have pace := FrameClock.inPace_after (by rwa [ticks]) begins ordered
      exact Int.le_trans pace.origin_le (across _ List.getLastD_mem_cons now (by simp))
    have pace : left.InPace now := FrameClock.inPace_take (by rwa [ticks']) reached
    have ticks'' : left.period = period := (asked.period_take now).trans ticks'
    have within := pace.2
    have bounds := pace.untilDue_bounds
    rw [ticks''] at within bounds
    refine ⟨?_, ⟨pace.1, within⟩, bounds, pace.take_eq, ?_⟩
    · have capped := asked.taken_le_cap now
      rw [FrameClock.cap_after] at capped
      omega
    · intro stalled
      have anew : left = asked.restart now := by
        show (asked.take now).2 = asked.restart now
        rw [FrameClock.take_of_stalled stalled]
      rw [anew, ← ticks']
      exact FrameClock.keepsPace_restart (by rwa [ticks']) onward
  · intro others ordered' same calm calm'
    have here := (law times ordered).2.mpr calm
    have there := (law others ordered').2.mpr calm'
    rw [same, ← here] at there
    exact Int.ofNat_inj.mp there

/-- A clock of sixty frames in a second that is asked too early, on time, as late as the cap allows,
and then much too late: the stall starts it anew. -/
theorem frames_keep_pace_one_stall :
    let c := ((FrameClock.start 60 5 7).after [100, 50000000]).restart 1000
    let times : List Int :=
      [1000, 16667665, 16667666, 100000996] ++ 300000000 :: [316666666]
    let stalled := c.after [1000, 16667665, 16667666, 100000996]
    let left := (stalled.take 300000000).2
    (c.framesTaken times = 12 ∧ ¬ c.NeverStalled times) ∧
      c.KeepsPace 16666666 1000 times ∧
      left.KeepsPace 16666666 300000000 [316666666] := by
  intro c times stalled left
  have facts : (c.framesTaken times = 12 ∧ ¬ c.NeverStalled times) ∧
      stalled.Stalled 300000000 := by decide +kernel
  have slow : 60 ≤ 1000000000 := by decide
  have ordered : (1000 :: times).Pairwise (· ≤ ·) := by decide +kernel
  obtain ⟨calls, law, -⟩ := frames_keep_pace slow 5 7 [100, 50000000] ordered
  obtain ⟨-, -, -, -, anew⟩ := calls _ _ _ rfl
  exact ⟨facts.1, law, anew facts.2⟩

end Chip8
