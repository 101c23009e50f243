import Chip8.Proofs.Dispatch
import Chip8.Proofs.Histories

namespace Chip8

/-!
# Frames step by step

A frame is its first step and then a frame of the steps that are left, as long as the machine
runs; once it waits for a key, the rest of the frame takes no steps.

* `Operation.isFrame`, `Operation.isTick` — the operations that are frames, and those that count
  the timers down.
* `Machine.fault?_step_of_running_after`, `Machine.running_of_step` — a step reports no fault
  if the machine runs after it, and a machine that goes on after a step runs.
* `Machine.runFrame_zero`, `Machine.machine_runFrame_of_calm` — what a frame does at its end.
* `Machine.steps_succ_of_running`, `Machine.runFrame_succ_of_running`,
  `Machine.runFrame_succ_of_waiting` — steps and frames by their first step.
* `Machine.runFrame_of_waiting_after` — a frame by the step that makes the machine wait.
* `Machine.runFrame_of_running` — a frame in which the machine never stops running.
-/

namespace Operation

/-- Whether the timers go down at the end of an operation, unless it reports a fault. -/
def isTick : Operation → Bool
  | frame _ | countDown => true
  | _ => false

/-- Whether an operation is a frame. -/
def isFrame : Operation → Bool
  | frame _ => true
  | _ => false

end Operation

namespace Machine

variable {m : Machine}

/-! ### Between two steps -/

/-- A step after which the machine runs reports no fault. -/
theorem fault?_step_of_running_after (running : m.step.machine.activity = .running) :
    m.step.fault? = none := by
  have case := m.step_cases
  generalize m.step = o at case running ⊢
  cases case with
  | refused => cases running
  | executed | resumed | parked => rfl
  | stuck halted =>
    rw [halted] at running
    cases running

/-- A machine that goes on after a step either runs or waits. -/
theorem running_of_step (going : m.isHalted = false) (calm : m.step.fault? = none)
    (busy : m.step.machine.isWaiting = false) : m.step.machine.activity = .running := by
  rw [isHalted_eq_false_iff] at going
  have case := m.step_cases
  generalize m.step = o at case calm busy ⊢
  cases case with
  | refused => cases calm
  | executed running =>
    have activity := activity_execute m (decode (m.fetch m.pc))
    rw [running] at activity
    simp only [isWaiting, activity_complete] at busy ⊢
    split at activity
    · rw [activity] at busy
      cases busy
    · exact activity
  | resumed => rfl
  | parked => cases busy
  | stuck halted => exact absurd halted (going _)

/-- A machine that waits for a key has not halted. -/
theorem isHalted_of_waiting {register : Register} {seen : Keypad}
    (waiting : m.activity = .awaitingKey register seen) : m.isHalted = false := by
  simp [isHalted, waiting, Activity.phase]

/-! ### Frames -/

/-- A frame without steps counts the timers down and itself. -/
theorem runFrame_zero (going : m.isHalted = false) :
    m.runFrame 0 = { machine := { m.countDown with frames := m.frames + 1 } } := by
  rw [runFrame_of_not_halted going]
  rfl

/-- A frame of a machine that has not halted takes the steps that it is asked for. -/
theorem trail_frame (going : m.isHalted = false) (count : Nat) :
    (Operation.frame count).trail m = trail count m := by
  simp only [Operation.trail, going, Bool.false_eq_true, if_false]

/-- A frame that reports no fault is one of a machine that had not halted, takes its steps
without a fault, and then counts the timers down and itself. -/
theorem machine_runFrame_of_calm {count : Nat} (calm : (m.runFrame count).fault? = none) :
    m.isHalted = false ∧ (steps count m).fault? = none ∧
      (m.runFrame count).machine =
        { (steps count m).machine.countDown with
          frames := (steps count m).machine.countDown.frames + 1 } := by
  cases halted : m.isHalted with
  | true =>
    obtain ⟨fault, halted⟩ := m.isHalted_iff.mp halted
    rw [runFrame_of_halted halted] at calm
    cases calm
  | false =>
    rw [runFrame_of_not_halted halted] at calm ⊢
    cases reported : (steps count m).fault? with
    | some fault =>
      simp only [reported] at calm
      cases calm
    | none => exact ⟨rfl, rfl, rfl⟩

/-- Steps go on after the first one if it leaves the machine running. -/
theorem steps_succ_of_running (running : m.step.machine.activity = .running) (count : Nat) :
    steps (count + 1) m = steps count m.step.machine := by
  have calm := fault?_step_of_running_after running
  have busy := isWaiting_of_running running
  simp only [steps, calm, busy, Option.isSome_none, Bool.or_self, Bool.false_eq_true, if_false]

/-- So does a frame, with the steps that are left. -/
theorem runFrame_succ_of_running (going : m.isHalted = false)
    (running : m.step.machine.activity = .running) (count : Nat) :
    m.runFrame (count + 1) = m.step.machine.runFrame count := by
  rw [runFrame_of_not_halted going, runFrame_of_not_halted (isHalted_of_running running),
    steps_succ_of_running running]

/-- A frame whose first step leaves the machine waiting takes no other step. -/
theorem runFrame_succ_of_waiting (going : m.isHalted = false) {register : Register}
    {seen : Keypad} {after : Machine} (parks : m.step = { machine := after })
    (waiting : after.activity = .awaitingKey register seen) (count : Nat) :
    m.runFrame (count + 1) = after.runFrame 0 := by
  have busy : after.isWaiting = true := by
    simp [isWaiting, waiting, Activity.phase]
  have last : steps (count + 1) m = { machine := after } := by
    simp only [steps, parks, busy, Bool.or_true, if_true]
  rw [runFrame_of_not_halted going, runFrame_zero (isHalted_of_waiting waiting), last]
  rfl

/-- A frame in which the machine runs up to a step that makes it wait takes the steps up to
that one and no other. -/
theorem runFrame_of_waiting_after {register : Register} {seen : Keypad} {k count : Nat}
    {after : Machine}
    (running : ∀ j ≤ k, (m.after (List.replicate j .step)).activity = .running)
    (parks : (m.after (List.replicate k .step)).step = { machine := after })
    (waiting : after.activity = .awaitingKey register seen) (inside : k < count) :
    m.runFrame count = after.runFrame 0 := by
  have going : m.isHalted = false := isHalted_of_running (running 0 (Nat.zero_le k))
  induction k generalizing m count with
  | zero =>
    obtain ⟨count, rfl⟩ := Nat.exists_eq_succ_of_ne_zero (Nat.ne_of_gt inside)
    exact runFrame_succ_of_waiting going parks waiting count
  | succ k ih =>
    obtain ⟨count, rfl⟩ := Nat.exists_eq_succ_of_ne_zero (Nat.ne_zero_of_lt inside)
    -- the machine runs after the first step, so the frame is that of the steps that are left
    have first : m.step.machine.activity = .running := running 1 (Nat.succ_le_succ (Nat.zero_le k))
    have later : ∀ j ≤ k,
        (m.step.machine.after (List.replicate j .step)).activity = .running :=
      fun j h => running (j + 1) (Nat.succ_le_succ h)
    show m.runFrame (count + 1) = after.runFrame 0
    rw [runFrame_succ_of_running going first count]
    exact ih later parks (Nat.lt_of_succ_lt_succ inside) (isHalted_of_running first)

/-- A frame in which the machine never stops running takes all of its steps. -/
theorem runFrame_of_running {count : Nat}
    (running : ∀ j ≤ count, (m.after (List.replicate j .step)).activity = .running) :
    m.runFrame count = (m.after (List.replicate count .step)).runFrame 0 := by
  have going : m.isHalted = false := isHalted_of_running (running 0 (Nat.zero_le count))
  induction count generalizing m with
  | zero => rfl
  | succ count ih =>
    have first : m.step.machine.activity = .running :=
      running 1 (Nat.succ_le_succ (Nat.zero_le count))
    have later : ∀ j ≤ count,
        (m.step.machine.after (List.replicate j .step)).activity = .running :=
      fun j h => running (j + 1) (Nat.succ_le_succ h)
    rw [runFrame_succ_of_running going first count]
    exact ih later (isHalted_of_running first)

end Machine

end Chip8
