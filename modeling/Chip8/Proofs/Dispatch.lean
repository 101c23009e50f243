import Chip8.Machine.Operation
import Chip8.Proofs.Decoding

namespace Chip8

/-!
# What a step can do

A step is one of five things, and an instruction touches few parts of the machine.  Later
modules argue from the statements here and do not open `Machine.step` or
`Machine.execute` again.

* `Machine.StepCase`, `Machine.step_cases` — the five ways in which a step can go.
* `Machine.activity_execute`, `Machine.calls_execute`, `Machine.memory_execute`,
  `Machine.display_execute`, `Machine.pc_execute` — one part of the machine after an instruction.
* `Machine.FaultArises`, `Machine.refusal?_eq_some_iff` — when an instruction is refused,
  said of the word and the stack; `Machine.refusal?_ret_eq_none_iff` and
  `Machine.refusal?_call_eq_none_iff` say when the two that need a slot are not, and
  `Machine.refusal?_eq_none_of_calm` that none is in a step without a fault.
* `Machine.exists_timeline_complete` — recording an instruction touches the timeline and the
  count of instructions, and nothing else; `Machine.exists_timeline_step` — so a step that is not
  refused is the instruction and that.
* `Machine.settings_step` — what no step touches.
-/

namespace Machine

/-! ### Parts of the machine after an instruction -/

/-- Only a key wait changes what the machine is doing. -/
theorem activity_execute (m : Machine) (i : Instruction) :
    (m.execute i).activity =
      match i with
      | .awaitKey x => .awaitingKey x m.keys
      | _ => m.activity := by
  cases i <;> rfl

/-- Only calls and returns touch the call stack. -/
theorem calls_execute (m : Machine) (i : Instruction) :
    (m.execute i).calls =
      match i with
      | .ret => m.calls.pop
      | .call _ => m.calls.push m.next.pc
      | _ => m.calls := by
  cases i <;> rfl

/-- Only two instructions write to memory. -/
theorem memory_execute (m : Machine) (i : Instruction) :
    (m.execute i).memory =
      match i with
      | .decimal x => m.memory.writeFrom m.index.toNat (decimalDigits (m.reg x))
      | .store x => m.memory.writeFrom m.index.toNat (m.registersUpTo x)
      | _ => m.memory := by
  cases i <;> rfl

/-- Only two instructions touch the display: one blanks it and one draws on it. -/
theorem display_execute (m : Machine) (i : Instruction) :
    (m.execute i).display =
      match i with
      | .clear => .blank
      | .draw x y rows =>
        (m.display.draw ((m.reg x).toNat % Display.width) ((m.reg y).toNat % Display.height)
          (m.spriteRows rows)).display
      | _ => m.display := by
  cases i <;> rfl

/-- The program counter stays, takes the newest return address, or is set to a cell. -/
theorem pc_execute (m : Machine) (i : Instruction) :
    (m.execute i).pc = m.pc ∨ (i = .ret ∧ (m.execute i).pc = m.calls.top) ∨
      ∃ a : Address, (m.execute i).pc = a.toWord := by
  cases i
  case native | data | awaitKey => exact Or.inl rfl
  case ret => exact Or.inr (Or.inl ⟨rfl, rfl⟩)
  all_goals exact Or.inr (Or.inr ⟨_, rfl⟩)

/-- No instruction counts itself or records itself. -/
theorem record_execute (m : Machine) (i : Instruction) :
    (m.execute i).cycles = m.cycles ∧ (m.execute i).timeline = m.timeline ∧
      (m.execute i).traceLimit = m.traceLimit := by
  cases i <;> exact ⟨rfl, rfl, rfl⟩

/-- No instruction touches the keys, the dialect or the count of frames. -/
theorem settings_execute (m : Machine) (i : Instruction) :
    (m.execute i).keys = m.keys ∧ (m.execute i).dialect = m.dialect ∧
      (m.execute i).frames = m.frames := by
  cases i <;> exact ⟨rfl, rfl, rfl⟩

/-! ### Recording an instruction

Recording touches the timeline and the count of instructions only. -/

section Complete

variable (m : Machine) (pc word : UInt16) (form : Form) (traffic : List Transfer)

/-- Recording puts something into the timeline and counts, and does nothing else. -/
theorem exists_timeline_complete : ∃ timeline, m.complete pc word form traffic =
    { m with timeline := timeline, cycles := m.cycles + 1 } := by
  unfold complete
  split
  · exact ⟨m.timeline, rfl⟩
  · exact ⟨_, rfl⟩

@[simp] theorem pc_complete : (m.complete pc word form traffic).pc = m.pc := by
  unfold complete; split <;> rfl

@[simp] theorem index_complete : (m.complete pc word form traffic).index = m.index := by
  unfold complete; split <;> rfl

@[simp] theorem registers_complete :
    (m.complete pc word form traffic).registers = m.registers := by
  unfold complete; split <;> rfl

@[simp] theorem calls_complete : (m.complete pc word form traffic).calls = m.calls := by
  unfold complete; split <;> rfl

@[simp] theorem memory_complete : (m.complete pc word form traffic).memory = m.memory := by
  unfold complete; split <;> rfl

@[simp] theorem display_complete : (m.complete pc word form traffic).display = m.display := by
  unfold complete; split <;> rfl

@[simp] theorem activity_complete :
    (m.complete pc word form traffic).activity = m.activity := by
  unfold complete; split <;> rfl

@[simp] theorem cycles_complete :
    (m.complete pc word form traffic).cycles = m.cycles + 1 := by
  unfold complete; split <;> rfl

@[simp] theorem traceLimit_complete :
    (m.complete pc word form traffic).traceLimit = m.traceLimit := by
  unfold complete; split <;> rfl

end Complete

/-! ### The ways in which a step can go -/

/-- The outcomes that a step of a machine can have, each with the state that leads to it. -/
inductive StepCase (m : Machine) : Outcome → Prop where
  /-- The instruction is refused, and the machine halts on it. -/
  | refused {kind : FaultKind} (running : m.activity = .running)
      (reason : m.refusal? (decode (m.fetch m.pc)) = some kind) :
      StepCase m (m.halt ⟨kind, m.fetch m.pc, m.pc⟩)
  /-- The instruction is carried out. -/
  | executed (running : m.activity = .running)
      (accepted : m.refusal? (decode (m.fetch m.pc)) = none) (traffic : List Transfer) :
      StepCase m
        { machine :=
            (m.execute (decode (m.fetch m.pc))).complete m.pc (m.fetch m.pc)
              (decode (m.fetch m.pc)).form traffic }
  /-- The machine waits, and a key ends the wait. -/
  | resumed {register : Register} {seen : Keypad} {key : Key}
      (waiting : m.activity = .awaitingKey register seen)
      (pressed : m.keys.firstPressed? seen = some key) :
      StepCase m
        { machine :=
            { m.next.setReg register (UInt8.ofNat key.val) with activity := .running } }
  /-- The machine waits, and goes on waiting. -/
  | parked {register : Register} {seen : Keypad}
      (waiting : m.activity = .awaitingKey register seen)
      (nothing : m.keys.firstPressed? seen = none) :
      StepCase m { machine := { m with activity := .awaitingKey register m.keys } }
  /-- The machine has halted, and stays as it is. -/
  | stuck {fault : Fault} (halted : m.activity = .halted fault) :
      StepCase m { machine := m, fault? := some fault }

/-- A step goes in one of the five ways. -/
theorem step_cases (m : Machine) : StepCase m m.step := by
  cases activity : m.activity with
  | running =>
    rw [step_of_running activity]
    cases refused : m.refusal? (decode (m.fetch m.pc)) with
    | none =>
      simp only [dispatch, refused]
      exact .executed activity refused _
    | some kind =>
      rw [dispatch_of_refused refused]
      exact .refused activity refused
  | awaitingKey register seen =>
    rw [step_of_awaitingKey activity]
    cases pressed : m.keys.firstPressed? seen with
    | none =>
      simp only [poll, pressed]
      exact .parked activity pressed
    | some key =>
      simp only [poll, pressed]
      exact .resumed activity pressed
  | halted fault =>
    rw [step_of_halted activity]
    exact .stuck activity

/-- A step that carries an instruction out puts something into the timeline and counts, and does
nothing else beside it. -/
theorem exists_timeline_step {m : Machine} {i : Instruction} (running : m.activity = .running)
    (word : decode (m.fetch m.pc) = i) (accepted : m.refusal? i = none) :
    ∃ timeline, m.step =
      { machine := { m.execute i with timeline := timeline, cycles := m.cycles + 1 } } := by
  subst word
  rw [step_of_running running, dispatch_of_accepted accepted]
  obtain ⟨timeline, recorded⟩ := exists_timeline_complete
    (m.execute (decode (m.fetch m.pc))) m.pc (m.fetch m.pc) (decode (m.fetch m.pc)).form
    (if m.traceLimit = 0 then [] else m.traffic (decode (m.fetch m.pc)))
  have count := (m.record_execute (decode (m.fetch m.pc))).1
  exact ⟨timeline, by rw [recorded, count]⟩

/-- No step touches the keys, the dialect, the bound of the timeline or the count of frames. -/
theorem settings_step (m : Machine) :
    m.step.machine.keys = m.keys ∧ m.step.machine.dialect = m.dialect ∧
      m.step.machine.traceLimit = m.traceLimit ∧ m.step.machine.frames = m.frames := by
  have case := m.step_cases
  generalize m.step = o at case ⊢
  cases case with
  | refused | resumed | parked | stuck => exact ⟨rfl, rfl, rfl, rfl⟩
  | executed _ _ traffic =>
    obtain ⟨timeline, recorded⟩ := (m.execute (decode (m.fetch m.pc))).exists_timeline_complete
      m.pc (m.fetch m.pc) (decode (m.fetch m.pc)).form traffic
    obtain ⟨keys, dialect, frames⟩ := m.settings_execute (decode (m.fetch m.pc))
    rw [recorded]
    exact ⟨keys, dialect, (m.record_execute _).2.2, frames⟩

/-! ### When an instruction is refused -/

/-- Whether the instruction at the program counter raises a fault of some kind: said of its
word and of the slots that are taken. -/
def FaultArises (m : Machine) : FaultKind → Prop
  | .programTooLarge => False
  | .unknownInstruction =>
    (decode (m.fetch m.pc)).form = .native ∨ (decode (m.fetch m.pc)).form = .data
  | .stackOverflow => (m.fetch m.pc).toNat / 4096 = 2 ∧ m.calls.depth = 16
  | .stackUnderflow => m.fetch m.pc = 0x00EE ∧ m.calls.depth = 0

/-- The instruction at the program counter is refused exactly for a fault that arises. -/
theorem refusal?_eq_some_iff (m : Machine) (kind : FaultKind) :
    m.refusal? (decode (m.fetch m.pc)) = some kind ↔ m.FaultArises kind := by
  -- words are turned into instructions once, and then every instruction is looked at
  have call := exists_decode_eq_call_iff (m.fetch m.pc)
  have ret := decode_eq_ret_iff (m.fetch m.pc)
  cases kind with
  | programTooLarge =>
    unfold FaultArises refusal?
    cases decode (m.fetch m.pc) <;> simp
  | unknownInstruction =>
    unfold FaultArises refusal? Instruction.form
    cases decode (m.fetch m.pc) <;> simp
  | stackOverflow =>
    unfold FaultArises refusal?
    rw [← call]
    cases decode (m.fetch m.pc) <;> simp [CallStack.isFull, CallStack.capacity]
  | stackUnderflow =>
    unfold FaultArises refusal?
    rw [← ret]
    cases decode (m.fetch m.pc) <;> simp [CallStack.isEmpty]

/-- An instruction whose step reports no fault has not been refused. -/
theorem refusal?_eq_none_of_calm {m : Machine} (running : m.activity = .running)
    (calm : m.step.fault? = none) : m.refusal? (decode (m.fetch m.pc)) = none := by
  cases reason : m.refusal? (decode (m.fetch m.pc)) with
  | none => rfl
  | some kind =>
    rw [step_of_running running, dispatch_of_refused reason] at calm
    cases calm

/-- A return is refused exactly on an empty stack. -/
theorem refusal?_ret_eq_none_iff (m : Machine) : m.refusal? .ret = none ↔ 0 < m.calls.depth := by
  unfold refusal?
  by_cases empty : m.calls.depth = 0
  · simp [CallStack.isEmpty, empty]
  · simp [CallStack.isEmpty, empty]
    omega

/-- A call is refused exactly on a full stack. -/
theorem refusal?_call_eq_none_iff (m : Machine) (t : Address) :
    m.refusal? (.call t) = none ↔ m.calls.depth < 16 := by
  have bound := m.calls.depth_le
  unfold refusal?
  by_cases full : m.calls.depth = 16
  · simp [CallStack.isFull, CallStack.capacity, full]
  · simp [CallStack.isFull, CallStack.capacity, full]
    omega

end Machine

end Chip8
