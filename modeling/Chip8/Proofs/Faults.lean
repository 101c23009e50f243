import Chip8.Proofs.Frames

namespace Chip8

/-!
# Faults

A fault arises on the words and stacks that call for one and on no others.  It changes
nothing but the run state, wherever in a frame it arises; from then on the machine reports
it again and again, stays as it is, and does not announce it a second time.

* `Machine.fault?_step_eq_some_iff`, `Machine.step_of_fault` — when a step reports a fault,
  and what that step does.
* `Machine.FaultsAt`, `Machine.steps_of_faultsAt` — a fault after some steps of a frame.
* `Machine.perform_of_halted` — steps and frames of a machine that has halted.
* `Machine.announced_stretch` — what is announced between one restart and the next.
* `faults_exact_atomic_absorbing` — all of that in one statement.
-/

/-- The fault that a notice announces, if it announces one. -/
def Notice.fault? : Notice → Option Fault
  | halted fault => some fault
  | _ => none

/-- Whether an operation makes the machine go on: a step or a frame of them. -/
def Operation.isRun : Operation → Bool
  | step => true
  | frame _ => true
  | _ => false

namespace Machine

variable {m : Machine} {fault : Fault}

/-! ### Single steps -/

/-- A machine that runs reports a fault exactly where one arises, with the word and the
address of the instruction. -/
theorem fault?_step_eq_some_iff (running : m.activity = .running) (fault : Fault) :
    m.step.fault? = some fault ↔
      m.FaultArises fault.kind ∧ fault.word = m.fetch m.pc ∧ fault.address = m.pc := by
  rw [step_of_running running, ← refusal?_eq_some_iff]
  cases reason : m.refusal? (decode (m.fetch m.pc)) with
  | none => simp [fault?_dispatch_of_accepted reason]
  | some kind =>
    rw [dispatch_of_refused reason]
    obtain ⟨kind', word, address⟩ := fault
    simp only [halt, Option.some.injEq, Fault.mk.injEq]
    constructor
    · rintro ⟨rfl, rfl, rfl⟩
      exact ⟨rfl, rfl, rfl⟩
    · rintro ⟨rfl, rfl, rfl⟩
      exact ⟨rfl, rfl, rfl⟩

/-- A step that reports a fault, of a machine that had not halted, does nothing but halt. -/
theorem step_of_fault (going : m.isHalted = false) (h : m.step.fault? = some fault) :
    m.step = m.halt fault := by
  rw [isHalted_eq_false_iff] at going
  have case := m.step_cases
  generalize m.step = o at case h ⊢
  cases case with
  | refused =>
    cases h
    rfl
  | executed | resumed | parked => cases h
  | stuck halted => exact absurd halted (going _)

/-- The fault that stopped a machine was announced when it did, and not since. -/
theorem announced_step (m : Machine) :
    m.fault?.toList ++ m.step.notices.filterMap Notice.fault? = m.step.machine.fault?.toList := by
  have case := m.step_cases
  generalize m.step = o at case ⊢
  cases case with
  | refused running => simp [Machine.fault?, running, halt, Activity.fault?, Notice.fault?]
  | executed running =>
    have activity := activity_execute m (decode (m.fetch m.pc))
    rw [running] at activity
    simp only [Machine.fault?, activity_complete, activity, running]
    split <;> rfl
  | resumed waiting | parked waiting => simp [Machine.fault?, waiting, Activity.fault?]
  | stuck halted => simp

/-! ### Frames -/

/-- Taking single steps, the machine runs after each of some number of them, and the step
that comes next reports a fault. -/
def FaultsAt (m : Machine) (k : Nat) (fault : Fault) : Prop :=
  (∀ j < k, (m.after (List.replicate (j + 1) .step)).activity = .running) ∧
    (m.after (List.replicate k .step)).step.fault? = some fault

instance (m : Machine) (k : Nat) (fault : Fault) : Decidable (m.FaultsAt k fault) :=
  inferInstanceAs (Decidable (_ ∧ _))

theorem faultsAt_zero (m : Machine) (fault : Fault) :
    m.FaultsAt 0 fault ↔ m.step.fault? = some fault := by
  simp [FaultsAt]

theorem faultsAt_succ (m : Machine) (k : Nat) (fault : Fault) :
    m.FaultsAt (k + 1) fault ↔
      m.step.machine.activity = .running ∧ m.step.machine.FaultsAt k fault := by
  unfold FaultsAt
  constructor
  · rintro ⟨running, faults⟩
    exact ⟨running 0 k.succ_pos, fun j h => running (j + 1) (Nat.succ_lt_succ h), faults⟩
  · rintro ⟨first, running, faults⟩
    refine ⟨fun j h => ?_, faults⟩
    cases j with
    | zero => exact first
    | succ j => exact running j (Nat.lt_of_succ_lt_succ h)

/-- A machine that had not halted has not halted when a fault arises after some steps. -/
theorem FaultsAt.isHalted_eq_false {k : Nat} (h : m.FaultsAt k fault)
    (going : m.isHalted = false) : (m.after (List.replicate k .step)).isHalted = false := by
  cases k with
  | zero => exact going
  | succ k => exact isHalted_of_running (h.1 k (Nat.lt_succ_self k))

/-- Steps end with the first of them that reports a fault. -/
theorem steps_of_faultsAt {k count : Nat} (h : m.FaultsAt k fault) (inside : k < count) :
    steps count m = (m.after (List.replicate k .step)).step := by
  induction k generalizing m count with
  | zero =>
    rw [faultsAt_zero] at h
    obtain ⟨count, rfl⟩ := Nat.exists_eq_succ_of_ne_zero (Nat.ne_of_gt inside)
    simp [steps, h]
  | succ k ih =>
    rw [faultsAt_succ] at h
    obtain ⟨running, later⟩ := h
    obtain ⟨count, rfl⟩ := Nat.exists_eq_succ_of_ne_zero (Nat.ne_zero_of_lt inside)
    -- a machine that runs after its first step goes on to the next one
    show steps (count + 1) m = _
    rw [steps_succ_of_running running]
    exact ih later (Nat.lt_of_succ_lt_succ inside)

/-- Steps that report a fault have come upon it after some of them. -/
theorem exists_faultsAt_of_steps {count : Nat} (going : m.isHalted = false)
    (h : (steps count m).fault? = some fault) : ∃ k < count, m.FaultsAt k fault := by
  induction count generalizing m with
  | zero => cases h
  | succ count ih =>
    rcases steps_succ count m with ⟨last, _⟩ | ⟨calm, busy, onward, _⟩
    · rw [last] at h
      exact ⟨0, count.succ_pos, (faultsAt_zero m fault).mpr h⟩
    · rw [onward] at h
      have running := running_of_step going calm busy
      obtain ⟨k, inside, later⟩ := ih (isHalted_of_running running) h
      exact ⟨k + 1, Nat.succ_lt_succ inside, (faultsAt_succ m k fault).mpr ⟨running, later⟩⟩

/-- A frame in which a fault arises after some steps does these steps and halts; it neither
counts the timers down nor itself. -/
theorem runFrame_of_faultsAt {k count : Nat} (going : m.isHalted = false)
    (h : m.FaultsAt k fault) (inside : k < count) :
    m.runFrame count = (m.after (List.replicate k .step)).halt fault := by
  -- the frame is over with the step that halts, so its own end is never reached
  have ends := steps_of_faultsAt h inside
  rw [step_of_fault (h.isHalted_eq_false going) h.2] at ends
  rw [runFrame_of_not_halted going, ends]
  rfl

/-- A frame that reports a fault has come upon it after some of its steps. -/
theorem exists_faultsAt_of_runFrame {count : Nat} (going : m.isHalted = false)
    (h : (m.runFrame count).fault? = some fault) : ∃ k < count, m.FaultsAt k fault := by
  rw [runFrame_of_not_halted going] at h
  split at h
  · exact exists_faultsAt_of_steps going h
  · exact exists_faultsAt_of_steps going h

/-! ### Machines that have halted -/

/-- A machine that has halted reports its fault and does nothing else. -/
theorem perform_of_halted (halted : m.activity = .halted fault) {o : Operation}
    (runs : o.isRun = true) : o.perform m = { machine := m, fault? := some fault } := by
  cases o with
  | step => exact step_of_halted halted
  | frame count => exact runFrame_of_halted halted count
  | _ => cases runs

/-- A machine that has halted stays as it is, for however long it is made to go on. -/
theorem after_of_halted (halted : m.activity = .halted fault) {history : List Operation}
    (runs : ∀ o ∈ history, o.isRun = true) : m.after history = m := by
  induction history with
  | nil => rfl
  | cons o rest ih =>
    rw [after_cons, perform_of_halted halted (runs o (by simp))]
    exact ih fun later mem => runs later (by simp [mem])

/-! ### What is announced -/

/-- The faults that are announced over a history, in order. -/
def announced (m : Machine) : List Operation → List Fault
  | [] => []
  | o :: history =>
    (o.perform m).notices.filterMap Notice.fault? ++ (o.perform m).machine.announced history

/-- Steps announce the fault that stopped the machine, if they did stop it. -/
theorem announced_steps (count : Nat) (m : Machine) :
    m.fault?.toList ++ (steps count m).notices.filterMap Notice.fault? =
      (steps count m).machine.fault?.toList := by
  induction count generalizing m with
  | zero => simp [steps]
  | succ count ih =>
    have first := announced_step m
    rcases steps_succ count m with ⟨last, _⟩ | ⟨calm, _, onward, _⟩
    · rw [last]
      exact first
    · -- only the last step can have announced something
      rw [notices_step calm, List.filterMap_nil, List.append_nil] at first
      rw [first, onward]
      exact ih m.step.machine

/-- So does a frame. -/
theorem announced_runFrame (count : Nat) (m : Machine) :
    m.fault?.toList ++ (m.runFrame count).notices.filterMap Notice.fault? =
      (m.runFrame count).machine.fault?.toList := by
  cases halted : m.isHalted with
  | true =>
    obtain ⟨fault, halted⟩ := m.isHalted_iff.mp halted
    rw [runFrame_of_halted halted]
    simp
  | false =>
    have all := announced_steps count m
    rw [runFrame_of_not_halted halted]
    split
    · exact all
    · exact all

/-- An operation that does not restart the machine announces the fault that stopped it, if
it was that operation that did. -/
theorem announced_perform {o : Operation} (calm : ¬ o.Restarts) (m : Machine) :
    m.fault?.toList ++ (o.perform m).notices.filterMap Notice.fault? =
      (o.perform m).machine.fault?.toList := by
  cases o with
  | reset => exact absurd trivial calm
  | load program =>
    have large : ¬ program.length ≤ programCapacity := calm
    simp [Operation.perform, load, large, Notice.fault?]
  | step => exact announced_step m
  | frame count => exact announced_runFrame count m
  | _ => exact List.append_nil _

/-- Over a history without a restart, the fault that stopped the machine is announced
unless it had been before. -/
theorem announced_of_calm {history : List Operation} (calm : ∀ o ∈ history, ¬ o.Restarts)
    (m : Machine) : m.fault?.toList ++ m.announced history = (m.after history).fault?.toList := by
  induction history generalizing m with
  | nil => simp [announced]
  | cons o history ih =>
    have first := announced_perform (calm o (by simp)) m
    -- what the first operation has announced counts as announced before the others
    rw [announced, ← List.append_assoc, first]
    exact ih (fun p mem => calm p (by simp [mem])) _

/-- From a restart to the next, what is announced is the fault that stops the machine, once,
or nothing if it is not stopped. -/
theorem announced_stretch {start : Operation} (restarts : start.Restarts)
    {history : List Operation} (calm : ∀ o ∈ history, ¬ o.Restarts) (m : Machine) :
    m.announced (start :: history) = (m.after (start :: history)).fault?.toList := by
  have rest := announced_of_calm calm (start.perform m).machine
  cases start with
  | reset => exact rest
  | load program =>
    have fits : program.length ≤ programCapacity := restarts
    simp only [announced, after_cons, Operation.perform, load, fits, if_true] at rest ⊢
    exact rest
  | _ => cases restarts

end Machine

/-! ### Everything about faults -/

/-- Faults are exact, atomic and absorbing.  A machine that runs reports a fault exactly
where one arises, and the step that reports it changes nothing but the run state; a frame
does the steps before the fault and then halts, without counting the timers down or itself;
a machine that has halted answers every step and every frame with its fault and stays as it
is; and from one restart to the next the fault is announced once if the machine has halted,
and nothing is if it has not. -/
theorem faults_exact_atomic_absorbing (m : Machine) :
    (m.activity = .running → ∀ fault, m.step.fault? = some fault ↔
      m.FaultArises fault.kind ∧ fault.word = m.fetch m.pc ∧ fault.address = m.pc) ∧
    (m.activity = .running → ∀ fault, m.step.fault? = some fault →
      m.step.machine = { m with activity := .halted fault }) ∧
    (m.isHalted = false → ∀ count fault,
      (∀ k < count, m.FaultsAt k fault → m.runFrame count =
        { machine := { m.after (List.replicate k .step) with activity := .halted fault }
          fault? := some fault
          notices := [.halted fault] }) ∧
      ((m.runFrame count).fault? = some fault → ∃ k < count, m.FaultsAt k fault)) ∧
    (∀ fault, m.activity = .halted fault →
      ∀ history : List Operation, (∀ o ∈ history, o.isRun = true) →
        m.after history = m ∧ ∀ o : Operation, o.isRun = true →
          o.perform (m.after history) = { machine := m, fault? := some fault }) ∧
    (∀ start : Operation, start.Restarts →
      ∀ history : List Operation, (∀ o ∈ history, ¬ o.Restarts) →
        m.announced (start :: history) = (m.after (start :: history)).fault?.toList) := by
  refine ⟨?_, ?_, ?_, ?_, ?_⟩
  · exact Machine.fault?_step_eq_some_iff
  · intro running fault h
    rw [Machine.step_of_fault (Machine.isHalted_of_running running) h]
    rfl
  · intro going count fault
    refine ⟨?_, ?_⟩
    · intro k inside faults
      exact Machine.runFrame_of_faultsAt going faults inside
    · exact Machine.exists_faultsAt_of_runFrame going
  · intro fault halted history runs
    have stays := Machine.after_of_halted halted runs
    refine ⟨stays, ?_⟩
    intro o run
    rw [stays]
    exact Machine.perform_of_halted halted run
  · intro start restarts history calm
    exact Machine.announced_stretch restarts calm m

/-- A program with one instruction and then a word that is none: a frame halts on its second
step, further steps and frames do nothing, and one fault is announced. -/
theorem faults_exact_atomic_absorbing_second_step :
    let m := (Machine.powerOn {} 0 default).after [.load [0x60, 0x01, 0xFF, 0xFF]]
    let fault : Fault := ⟨.unknownInstruction, 0xFFFF, 0x202⟩
    let stopped := { m.after [.step] with activity := .halted fault }
    (m.after [.step]).step.machine = stopped ∧
      m.runFrame 9 = { machine := stopped, fault? := some fault, notices := [.halted fault] } ∧
      stopped.after [.step, .frame 3] = stopped ∧
      (m.announced [.load [0x60, 0x01, 0xFF, 0xFF], .frame 9, .step] = [fault]) := by
  intro m fault stopped
  have facts : (m.isHalted = false ∧ m.FaultsAt 1 fault) ∧
      ((m.after [.step]).activity = .running ∧ (m.after [.step]).step.fault? = some fault) ∧
      ((m.after [.load [0x60, 0x01, 0xFF, 0xFF], .frame 9, .step]).fault? = some fault) := by
    decide +kernel
  obtain ⟨⟨going, faults⟩, ⟨running, reports⟩, ends⟩ := facts
  have atStep := (faults_exact_atomic_absorbing (m.after [.step])).2.1 running fault reports
  have inFrame := (faults_exact_atomic_absorbing m).2.2.1 going 9 fault
  have afterwards := (faults_exact_atomic_absorbing stopped).2.2.2.1 fault rfl
  have stretch := (faults_exact_atomic_absorbing m).2.2.2.2 (.load [0x60, 0x01, 0xFF, 0xFF])
    (by decide) [.frame 9, .step] (by decide)
  refine ⟨atStep, ?_, ?_, ?_⟩
  · exact inFrame.1 1 (by decide) faults
  · exact (afterwards [.step, .frame 3] (by decide)).1
  · rw [stretch, ends]
    rfl

end Chip8
