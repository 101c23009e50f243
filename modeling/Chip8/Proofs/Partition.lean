import Chip8.Proofs.Timers
import Mathlib.Algebra.Ring.Nat

namespace Chip8

/-!
# Where frames begin and end

Steps are spread over frames, and between two frames the timers go down.  A program that neither
looks at the timers nor waits for a key cannot tell where that happens: it computes what as many
single steps compute.

* `Machine.Clocked`, `Machine.Unclocked` — an instruction that has to do with the passing of
  frames, and a number of steps that come upon none.
* `Machine.aged` — a machine that some frames without steps have passed by.
* `Machine.step_aged` — a step goes together with the passing of frames.
* `Machine.after_frames` — so do all steps of some frames.
* `frame_partition_immaterial` — frames after one another against single steps, and against other
  frames that take as many.
-/

/-- The forms that have to do with the passing of frames. -/
def Form.clocked : List Form := [.readDelay, .awaitKey, .setDelay, .setSound]

namespace Machine

variable {m : Machine}

/-! ### Instructions that have to do with the passing of frames -/

/-- Whether the word at the program counter reads a timer, starts one, or waits for a key. -/
def Clocked (m : Machine) : Prop :=
  (m.fetch m.pc).toNat / 0x1000 = 0xF ∧ (m.fetch m.pc).toNat % 0x100 ∈ [0x07, 0x0A, 0x15, 0x18]

/-- Taking a number of single steps, the machine reports no fault, reads and starts no timer, and
waits for no key. -/
def Unclocked (m : Machine) (count : Nat) : Prop :=
  ∀ k < count, (m.after (List.replicate k .step)).step.fault? = none ∧
    ¬ (m.after (List.replicate k .step)).Clocked

instance (m : Machine) : Decidable m.Clocked := inferInstanceAs (Decidable (_ ∧ _))

instance (m : Machine) (count : Nat) : Decidable (m.Unclocked count) :=
  inferInstanceAs (Decidable (∀ k < count, _))

/-- The words of these forms are told by their first digit and their low byte. -/
theorem clocked_of_form (h : (decode (m.fetch m.pc)).form ∈ Form.clocked) : m.Clocked := by
  unfold Clocked
  rw [← encode_decode (m.fetch m.pc)]
  generalize decode (m.fetch m.pc) = i at h ⊢
  cases i
  case readDelay x | awaitKey x | setDelay x | setSound x =>
    have := x.isLt
    rw [Instruction.encode, toNat_wordOfByte (by decide)]
    simp only [UInt8.reduceToNat, List.mem_cons]
    omega
  all_goals exact absurd h (by simp [Instruction.form, Form.clocked])

/-! ### The passing of frames -/

/-- A machine that some frames without steps have passed by. -/
def aged (m : Machine) (count : Nat) : Machine :=
  { m with
    delay := lowered m.delay count
    sound := lowered m.sound count
    frames := m.frames + count }

theorem aged_zero (m : Machine) : m.aged 0 = m := by
  simp [aged]

theorem aged_aged (m : Machine) (first second : Nat) :
    (m.aged first).aged second = m.aged (first + second) := by
  simp [aged, lowered_lowered, Nat.add_assoc]

/-- Frames that pass by have no part in whether an instruction is refused. -/
theorem refusal?_aged (m : Machine) (count : Nat) (i : Instruction) :
    (m.aged count).refusal? i = m.refusal? i := by
  cases i <;> rfl

/-- Only the instructions that are clocked notice them. -/
theorem execute_aged (m : Machine) (count : Nat) {i : Instruction} (h : i.form ∉ Form.clocked) :
    (m.aged count).execute i = (m.execute i).aged count := by
  cases i
  case readDelay | awaitKey | setDelay | setSound =>
    exact absurd h (by simp [Instruction.form, Form.clocked])
  all_goals rfl

/-- They are not recorded. -/
theorem complete_aged (m : Machine) (count : Nat) (pc word : UInt16) (form : Form)
    (traffic : List Transfer) :
    (m.aged count).complete pc word form traffic =
      (m.complete pc word form traffic).aged count := by
  have limit : (m.aged count).traceLimit = m.traceLimit := rfl
  unfold complete
  rw [limit]
  split
  · rfl
  · rfl

theorem traffic_aged (m : Machine) (count : Nat) (i : Instruction) :
    (m.aged count).traffic i = m.traffic i := by
  cases i <;> rfl

section Step

variable (running : m.activity = .running) (calm : m.step.fault? = none) (free : ¬ m.Clocked)
include running calm free

/-- A step that is not clocked leaves the machine running. -/
theorem activity_step_of_not_clocked : m.step.machine.activity = .running := by
  have accepted := refusal?_eq_none_of_calm running calm
  have activity := activity_execute m (decode (m.fetch m.pc))
  rw [step_of_running running, dispatch_of_accepted accepted, activity_complete]
  cases i : decode (m.fetch m.pc)
  case awaitKey x =>
    refine absurd (clocked_of_form ?_) free
    rw [i]
    simp [Instruction.form, Form.clocked]
  all_goals
    rw [i] at activity
    exact activity.trans running

/-- It does the same whether frames have passed by or not. -/
theorem step_aged (count : Nat) :
    (m.aged count).step = { machine := m.step.machine.aged count } := by
  have accepted := refusal?_eq_none_of_calm running calm
  have form : (decode (m.fetch m.pc)).form ∉ Form.clocked := fun h => free (clocked_of_form h)
  have running' : (m.aged count).activity = .running := running
  have accepted' : (m.aged count).refusal? (decode ((m.aged count).fetch (m.aged count).pc)) =
      none := (m.refusal?_aged count _).trans accepted
  have limit : (m.aged count).traceLimit = m.traceLimit := rfl
  have word : (m.aged count).fetch (m.aged count).pc = m.fetch m.pc := rfl
  rw [step_of_running running', dispatch_of_accepted accepted', step_of_running running,
    dispatch_of_accepted accepted, word, limit, execute_aged m count form, complete_aged,
    traffic_aged]
  rfl

end Step

/-! ### Steps -/

/-- A machine that is to come upon nothing clocked in some steps has, after the first of them,
the others to take. -/
theorem Unclocked.tail {count : Nat} (h : m.Unclocked (count + 1)) :
    m.step.machine.Unclocked count :=
  fun k inside => h (k + 1) (Nat.succ_lt_succ inside)

/-- So it has after any number of them. -/
theorem Unclocked.drop {first second : Nat} (h : m.Unclocked (first + second)) :
    (m.after (List.replicate first .step)).Unclocked second := by
  intro k inside
  have there := h (first + k) (Nat.add_lt_add_left inside first)
  rw [← List.replicate_append_replicate, after_append] at there
  exact there

theorem Unclocked.mono {fewer count : Nat} (h : m.Unclocked count) (le : fewer ≤ count) :
    m.Unclocked fewer :=
  fun k inside => h k (Nat.lt_of_lt_of_le inside le)

/-- Steps that come upon nothing clocked leave the machine running, and do the same whether
frames have passed by or not. -/
theorem after_steps_of_unclocked {count : Nat} (running : m.activity = .running)
    (h : m.Unclocked count) :
    (m.after (List.replicate count .step)).activity = .running ∧
      ∀ passed, (m.aged passed).after (List.replicate count .step) =
        (m.after (List.replicate count .step)).aged passed := by
  induction count generalizing m with
  | zero => exact ⟨running, fun _ => rfl⟩
  | succ count ih =>
    obtain ⟨calm, free⟩ := h 0 count.succ_pos
    obtain ⟨runs, same⟩ := ih (activity_step_of_not_clocked running calm free) h.tail
    refine ⟨runs, ?_⟩
    intro passed
    show (m.aged passed).step.machine.after (List.replicate count .step) = _
    rw [step_aged running calm free]
    exact same passed

/-- Whether steps come upon something clocked does not depend on frames that have passed by. -/
theorem Unclocked.aged {count : Nat} (running : m.activity = .running) (h : m.Unclocked count)
    (passed : Nat) : (m.aged passed).Unclocked count := by
  intro k inside
  obtain ⟨calm, free⟩ := h k inside
  obtain ⟨runs, same⟩ := after_steps_of_unclocked running (h.mono (Nat.le_of_lt inside))
  rw [same passed]
  refine ⟨?_, free⟩
  rw [step_aged runs calm free]

/-! ### Frames -/

/-- A frame whose steps come upon nothing clocked takes them all, and then passes by. -/
theorem runFrame_of_unclocked {count : Nat} (running : m.activity = .running)
    (h : m.Unclocked count) :
    m.runFrame count = { machine := (m.after (List.replicate count .step)).aged 1 } := by
  have throughout : ∀ j ≤ count, (m.after (List.replicate j .step)).activity = .running := by
    intro j inside
    exact (after_steps_of_unclocked running (h.mono inside)).1
  have going := isHalted_of_running (throughout count (Nat.le_refl count))
  rw [runFrame_of_running throughout, runFrame_zero going]
  simp only [aged, countDown, lowered_one]

/-- Frames whose steps come upon nothing clocked take them all; between them, nothing happens
but that they pass by. -/
theorem after_frames {counts : List Nat} (running : m.activity = .running)
    (h : m.Unclocked counts.sum) :
    (∀ left ∈ m.outcomes (counts.map .frame), left.fault? = none) ∧
      m.after (counts.map .frame) =
        (m.after (List.replicate counts.sum .step)).aged counts.length := by
  induction counts generalizing m with
  | nil => exact ⟨by simp [outcomes], (aged_zero _).symm⟩
  | cons count counts ih =>
    rw [List.sum_cons] at h
    have within : m.Unclocked count := h.mono (Nat.le_add_right count counts.sum)
    have frame := runFrame_of_unclocked running within
    obtain ⟨runs, _⟩ := after_steps_of_unclocked running within
    -- the rest of the frames finds the machine where the steps left it, but for one frame
    have rest := h.drop.aged runs 1
    obtain ⟨faultless, reached⟩ :=
      ih (m := (m.after (List.replicate count .step)).aged 1) runs rest
    have alike := (after_steps_of_unclocked runs h.drop).2 1
    have first : (Operation.frame count).perform m =
        { machine := (m.after (List.replicate count .step)).aged 1 } := frame
    refine ⟨?_, ?_⟩
    · rw [List.map_cons, outcomes, first]
      intro left mem
      rcases List.mem_cons.mp mem with rfl | later
      · rfl
      · exact faultless left later
    · rw [List.map_cons, after_cons, first, reached, alike, aged_aged, List.sum_cons,
        ← List.replicate_append_replicate, after_append, List.length_cons, Nat.add_comm 1]

end Machine

/-- Where frames begin and end does not matter to a program that neither looks at the timers nor
waits for a key.  Take a machine that runs and any list of frames, and let as many single steps
as the frames have together report no fault, read and start no timer and wait for no key.  Then
the frames report no fault, and they leave the machine as the single steps do, but that the frames
are counted and that each has let the timers go down.  So any two lists with as many frames and as
many steps leave the same machine. -/
theorem frame_partition_immaterial {m : Machine} (running : m.activity = .running)
    {counts : List Nat} (unclocked : m.Unclocked counts.sum) :
    let bare := m.after (List.replicate counts.sum .step)
    (∀ left ∈ m.outcomes (counts.map .frame), left.fault? = none) ∧
      m.after (counts.map .frame) =
        { bare with
          delay := lowered bare.delay counts.length
          sound := lowered bare.sound counts.length
          frames := bare.frames + counts.length } ∧
      ∀ counts' : List Nat, counts'.sum = counts.sum → counts'.length = counts.length →
        m.after (counts'.map .frame) = m.after (counts.map .frame) := by
  intro bare
  obtain ⟨faultless, reached⟩ := Machine.after_frames running unclocked
  refine ⟨faultless, reached, ?_⟩
  intro counts' sum length
  have unclocked' : m.Unclocked counts'.sum := by
    rw [sum]
    exact unclocked
  obtain ⟨_, reached'⟩ := Machine.after_frames running unclocked'
  rw [reached', reached, sum, length]

/-- A program that has started the delay timer at nine, and then goes round in a loop that counts
and writes what it has counted to memory: two ways to spread one round over three frames. -/
theorem frame_partition_immaterial_counting_loop :
    let m := (Machine.powerOn {} 5 default).after
      [.load [0x62, 0x09, 0xF2, 0x15, 0x70, 0x01, 0xA3, 0x00, 0xF0, 0x33, 0x12, 0x04],
        .step, .step]
    let bare := m.after (List.replicate 4 .step)
    let framed := m.after ([3, 0, 1].map .frame)
    (bare.delay = 9 ∧ bare.memory.read 0x302 = 1) ∧
      framed =
        { bare with
          delay := lowered bare.delay 3
          sound := lowered bare.sound 3
          frames := bare.frames + 3 } ∧
      m.after ([0, 2, 2].map .frame) = framed := by
  intro m bare framed
  have facts : (m.activity = .running ∧ m.Unclocked [3, 0, 1].sum) ∧
      (bare.delay = 9 ∧ bare.memory.read 0x302 = 1) := by decide +kernel
  obtain ⟨⟨running, unclocked⟩, counted⟩ := facts
  obtain ⟨_, reached, other⟩ := frame_partition_immaterial running unclocked
  exact ⟨counted, reached, other [0, 2, 2] rfl rfl⟩

end Chip8
