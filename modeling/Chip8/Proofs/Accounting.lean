import Chip8.Proofs.Frames
import Chip8.Proofs.Log

namespace Chip8

/-!
# Counting instructions and frames

A machine counts the instructions that it has carried out and the frames that it has completed.
Looks at the keys, faults, and what is asked of a machine that has halted, count for neither.

* `Machine.cycles_step`, `Machine.frames_step` — what one step adds to the counts.
* `Machine.cycles_of_passage` — a run adds as many instructions as it has carried out.
* `Machine.frames_after` — a history adds as many frames as it has completed.
* `Machine.cycles_steps_of_running`, `Machine.cycles_steps_of_waiting` — how many instructions
  the steps of one frame are.
* `instructions_and_frames_counted` — all of that from a restart on.
-/

/-- Whether an operation is a frame that has been completed, told from what it left behind. -/
def Operation.isCompletedFrame (done : Operation × Outcome) : Bool :=
  done.1.isFrame && done.2.fault?.isNone

namespace Machine

variable {m : Machine}

/-! ### Single steps -/

/-- A step that carries an instruction out adds one to the count of instructions, and no other
step adds anything. -/
theorem cycles_step (m : Machine) :
    m.step.machine.cycles = m.cycles + if m.executes then 1 else 0 := by
  cases executes : m.executes with
  | false => exact (step_of_not_executes executes).1
  | true =>
    have counted := (m.record_execute (decode (m.fetch m.pc))).1
    rw [step_of_executes executes, cycles_complete, counted, if_pos rfl]

/-- No step counts frames. -/
theorem frames_step (m : Machine) : m.step.machine.frames = m.frames :=
  m.settings_step.2.2.2

/-- A step that carries an instruction out is one of a machine that runs, and raises no fault. -/
theorem executes_iff_no_fault (m : Machine) :
    m.executes = true ↔ m.activity = .running ∧ ∀ kind, ¬ m.FaultArises kind := by
  rw [executes_iff]
  refine and_congr_right fun _ => ?_
  rw [Option.eq_none_iff_forall_ne_some]
  refine forall_congr' fun kind => ?_
  exact not_congr (m.refusal?_eq_some_iff kind)

/-- The instruction that waits for a key is carried out when the wait begins. -/
theorem executes_of_awaitKey {x : Register} (running : m.activity = .running)
    (word : (m.fetch m.pc).toNat = 0xF00A + x.val * 0x100) : m.executes = true := by
  refine executes_iff.mpr ⟨running, ?_⟩
  rw [decode_of_toNat_eq_awaitKey word]
  rfl

/-! ### Runs -/

/-- A run adds as many instructions to the count as it has carried out. -/
theorem cycles_of_passage {allowed : Operation → Prop} {last : Machine} {trail : List Machine}
    (h : Passage allowed m trail last) : last.cycles = m.cycles + trail.countP executes := by
  induction h with
  | refl => rfl
  | @step m last trail _ ih =>
    have here := m.cycles_step
    rw [List.countP_cons]
    omega
  | countDown _ ih | frames _ _ ih | keys _ _ ih | dialect _ _ ih => exact ih
  | traceLimit _ _ _ ih | poke _ _ _ _ ih => exact ih

/-- Steps add no frame to the count. -/
theorem frames_steps (count : Nat) (m : Machine) : (steps count m).machine.frames = m.frames := by
  induction count generalizing m with
  | zero => rfl
  | succ count ih =>
    have here := m.frames_step
    rcases steps_succ count m with ⟨last, _⟩ | ⟨_, _, onward, _⟩
    · rw [last]
      exact here
    · rw [onward, ih, here]

/-- An operation that does not restart the machine adds a frame if it completes one. -/
theorem frames_perform {o : Operation} (calm : ¬ o.Restarts) (m : Machine) :
    (o.perform m).machine.frames =
      m.frames + if Operation.isCompletedFrame (o, o.perform m) then 1 else 0 := by
  cases o with
  | reset => exact absurd trivial calm
  | load program =>
    show (m.load program).machine.frames = _
    rw [machine_load_of_not_restarts calm]
    rfl
  | step => exact m.frames_step
  | frame count =>
    show (m.runFrame count).machine.frames = _
    cases reported : (m.runFrame count).fault? with
    | none =>
      have completed : Operation.isCompletedFrame (.frame count, m.runFrame count) = true := by
        simp only [Operation.isCompletedFrame, Operation.isFrame, reported, Option.isNone_none,
          Bool.and_self]
      have ends := (machine_runFrame_of_calm reported).2.2
      rw [Operation.perform, completed, if_pos rfl, ends]
      show (steps count m).machine.frames + 1 = m.frames + 1
      rw [frames_steps]
    | some fault =>
      have broken : Operation.isCompletedFrame (.frame count, m.runFrame count) = false := by
        simp only [Operation.isCompletedFrame, reported, Option.isNone_some, Bool.and_false]
      rw [Operation.perform, broken, if_neg Bool.false_ne_true, Nat.add_zero]
      -- a frame that reports a fault ends where its steps do
      cases halted : m.isHalted with
      | true =>
        obtain ⟨fault, halted⟩ := m.isHalted_iff.mp halted
        rw [runFrame_of_halted halted]
      | false =>
        rw [runFrame_of_not_halted halted] at reported ⊢
        cases stopped : (steps count m).fault? with
        | some fault => exact frames_steps count m
        | none =>
          simp only [stopped] at reported
          cases reported
  | key | countDown | setDialect | setTraceLimit | poke => rfl

/-- A history adds as many frames to the count as it completes. -/
theorem frames_after {history : List Operation} (calm : ∀ o ∈ history, ¬ o.Restarts)
    (m : Machine) :
    (m.after history).frames =
      m.frames + (history.zip (m.outcomes history)).countP Operation.isCompletedFrame := by
  induction history generalizing m with
  | nil => rfl
  | cons o history ih =>
    have here := frames_perform (calm o (by simp)) m
    have later := ih (fun p mem => calm p (by simp [mem])) (o.perform m).machine
    rw [after_cons, outcomes, List.zip_cons_cons, List.countP_cons]
    omega

/-! ### The steps of one frame -/

/-- No more steps are taken than asked for. -/
theorem length_trail_le (count : Nat) (m : Machine) : (trail count m).length ≤ count := by
  induction count generalizing m with
  | zero => exact Nat.le_refl 0
  | succ count ih =>
    have onward := ih m.step.machine
    rcases steps_succ count m with ⟨_, alone⟩ | ⟨_, _, _, more⟩
    · rw [alone]
      exact Nat.succ_le_succ (Nat.zero_le count)
    · rw [more]
      exact Nat.succ_le_succ onward

/-- After steps at whose end the machine runs, it has run after the first of them. -/
theorem running_of_steps {count : Nat} (going : m.isHalted = false)
    (runs : (steps (count + 1) m).machine.activity = .running) :
    m.step.machine.activity = .running := by
  rcases steps_succ count m with ⟨last, _⟩ | ⟨calm, busy, _, _⟩
  · rw [last] at runs
    exact runs
  · exact running_of_step going calm busy

/-- Steps of a machine that runs before and after them are as many instructions. -/
theorem cycles_steps_of_running {count : Nat} (running : m.activity = .running)
    (runs : (steps count m).machine.activity = .running) :
    (steps count m).machine.cycles = m.cycles + count := by
  induction count generalizing m with
  | zero => rfl
  | succ count ih =>
    have first := running_of_steps (isHalted_of_running running) runs
    have executes : m.executes = true := by
      unfold executes
      rw [running, fault?_step_of_running_after first]
      rfl
    have counted := m.cycles_step
    rw [executes, if_pos rfl] at counted
    rw [steps_succ_of_running first] at runs ⊢
    have onward := ih first runs
    omega

/-- Steps of a machine that waits for a key before them and runs after them are one instruction
less: the look that ends the wait is one of them. -/
theorem cycles_steps_of_waiting {count : Nat} {register : Register} {seen : Keypad}
    (waiting : m.activity = .awaitingKey register seen)
    (runs : (steps count m).machine.activity = .running) :
    (steps count m).machine.cycles + 1 = m.cycles + count := by
  cases count with
  | zero =>
    have waits : (steps 0 m).machine.activity = .awaitingKey register seen := waiting
    rw [waits] at runs
    cases runs
  | succ count =>
    have first := running_of_steps (isHalted_of_waiting waiting) runs
    have looks : m.executes = false := by
      unfold executes
      rw [waiting]
      rfl
    have counted := m.cycles_step
    rw [looks, if_neg Bool.false_ne_true] at counted
    rw [steps_succ_of_running first] at runs ⊢
    have onward := cycles_steps_of_running first runs
    omega

/-- The steps of a frame add no more instructions than are asked for. -/
theorem cycles_steps_le (count : Nat) (m : Machine) :
    m.cycles ≤ (steps count m).machine.cycles ∧
      (steps count m).machine.cycles ≤ m.cycles + count := by
  have taken : Passage (fun _ => True) m (trail count m) (steps count m).machine :=
    passage_steps count m
  have counted := cycles_of_passage taken
  have some : (trail count m).countP executes ≤ (trail count m).length := List.countP_le_length
  have all := length_trail_le count m
  omega

end Machine

/-- Instructions and frames are counted exactly.  Take any history without a restart after a
restart.  The frames counted are those of its operations that are frames and report no fault, and
the instructions counted are those of its steps that carry one out: steps of a machine that runs,
at which no fault arises.  So an instruction that waits for a key is counted once, when the wait
begins.  A frame without a fault adds at most as many instructions as steps were asked for; it
adds exactly as many if the machine runs before and after it, and one less if the machine waits
before it and runs after it. -/
theorem instructions_and_frames_counted (m : Machine) {start : Operation}
    (restarts : start.Restarts) {history : List Operation}
    (calm : ∀ o ∈ history, ¬ o.Restarts) :
    let fresh := (start.perform m).machine
    let last := m.after (start :: history)
    last.frames = (history.zip (fresh.outcomes history)).countP Operation.isCompletedFrame ∧
      last.cycles = (fresh.historyTrail history).countP Machine.executes ∧
      (∀ b : Machine, b.executes = true ↔
        b.activity = .running ∧ ∀ kind, ¬ b.FaultArises kind) ∧
      (∀ (b : Machine) (x : Register), b.activity = .running →
        (b.fetch b.pc).toNat = 0xF00A + x.val * 0x100 → b.executes = true) ∧
      ∀ (before : Machine) (count : Nat), (before.runFrame count).fault? = none →
        let after := (before.runFrame count).machine
        (before.cycles ≤ after.cycles ∧ after.cycles ≤ before.cycles + count) ∧
        (before.activity = .running → after.activity = .running →
          after.cycles = before.cycles + count) ∧
        ∀ register seen, before.activity = .awaitingKey register seen →
          after.activity = .running → after.cycles + 1 = before.cycles + count := by
  intro fresh last
  obtain ⟨memory, restarted⟩ := Machine.exists_memory_of_restarts restarts m
  have noCycles : fresh.cycles = 0 := congrArg Machine.cycles restarted
  have noFrames : fresh.frames = 0 := congrArg Machine.frames restarted
  refine ⟨?_, ?_, Machine.executes_iff_no_fault, ?_, ?_⟩
  · have counted := Machine.frames_after calm fresh
    rw [noFrames, Nat.zero_add] at counted
    exact counted
  · have run : Machine.Passage (fun _ => True) fresh (fresh.historyTrail history) last :=
      Machine.passage_history (fun _ _ => trivial) calm fresh
    have counted := Machine.cycles_of_passage run
    rw [noCycles, Nat.zero_add] at counted
    exact counted
  · intro b x
    exact Machine.executes_of_awaitKey
  · intro before count faultless after
    -- the end of a frame changes neither the count of instructions nor the run state
    obtain ⟨_, _, ends⟩ := Machine.machine_runFrame_of_calm faultless
    have cycles : after.cycles = (Machine.steps count before).machine.cycles :=
      (congrArg Machine.cycles ends).trans rfl
    have activity : after.activity = (Machine.steps count before).machine.activity :=
      (congrArg Machine.activity ends).trans rfl
    rw [cycles, activity]
    refine ⟨Machine.cycles_steps_le count before, ?_, ?_⟩
    · exact Machine.cycles_steps_of_running
    · intro register seen
      exact Machine.cycles_steps_of_waiting

/-- A program that waits for a key after one instruction, and runs into a word that is none after
two more.  Of its three frames the last one is not completed; of its seven steps three look at
the keys or do nothing, and one faults.  The frame in which the wait ends takes two steps and
carries out one instruction. -/
theorem instructions_and_frames_counted_wait_then_fault :
    let m := Machine.powerOn {} 0 default
    let start : Operation := .load [0x60, 0x01, 0xF3, 0x0A, 0x61, 0x02, 0xFF, 0xFF]
    let history : List Operation := [.frame 5, .step, .key 4 true, .frame 2, .frame 3, .step]
    let last := m.after (start :: history)
    let pressed := m.after [start, .frame 5, .step, .key 4 true]
    (last.frames = 2 ∧ last.cycles = 3) ∧
      (pressed.runFrame 2).machine.cycles + 1 = pressed.cycles + 2 := by
  intro m start history last pressed
  let fresh := (start.perform m).machine
  have counts :
      (history.zip (fresh.outcomes history)).countP Operation.isCompletedFrame = 2 ∧
        (fresh.historyTrail history).countP Machine.executes = 3 := by decide +kernel
  have frame : (pressed.runFrame 2).fault? = none ∧
      pressed.activity = .awaitingKey 3 .released ∧
      (pressed.runFrame 2).machine.activity = .running := by decide +kernel
  obtain ⟨completed, executed⟩ := counts
  obtain ⟨faultless, waiting, runs⟩ := frame
  have restarts : start.Restarts := by decide
  have calm : ∀ o ∈ history, ¬ o.Restarts := by decide
  obtain ⟨frames, cycles, _, _, each⟩ := instructions_and_frames_counted m restarts calm
  refine ⟨⟨frames.trans completed, cycles.trans executed⟩, ?_⟩
  exact (each pressed 2 faultless).2.2 3 .released waiting runs

end Chip8
