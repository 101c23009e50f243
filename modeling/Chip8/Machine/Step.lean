import Chip8.Machine.Execution

namespace Chip8

/-!
# Steps and frames

A step executes one instruction, or looks at the keys once while the machine waits for one.
A frame is a number of steps followed by one count of the timers, sixty of them in a second.

* `Machine.step` — one step; a machine that has halted stays as it is.
* `Machine.countDown` — both timers go down by one, and stop at zero.
* `Machine.runFrame` — one frame, which ends early at a fault and stops stepping at a wait.
* `notices_step`, `notices_steps`, `notices_runFrame` — where no fault is reported, nothing is
  announced.
-/

namespace Machine

/-- Stop the machine at the current instruction. -/
def halt (m : Machine) (fault : Fault) : Outcome where
  machine := { m with activity := .halted fault }
  fault? := some fault
  notices := [.halted fault]

/-- Look at the keys while waiting: a key that was not down at the last look ends the wait. -/
def poll (m : Machine) (register : Register) (seen : Keypad) : Machine :=
  match m.keys.firstPressed? seen with
  | some key =>
    { m.next.setReg register (UInt8.ofNat key.val) with activity := .running }
  | none => { m with activity := .awaitingKey register m.keys }

/-- What the timeline keeps of an instruction, from the machine just after it. -/
def traceEntry (m : Machine) (pc word : UInt16) (form : Form) (traffic : List Transfer) :
    TraceEntry where
  cycle := m.cycles
  pc := pc
  word := word
  form := form
  index := m.index
  depth := m.calls.depth
  registers := m.registers
  phase := m.activity.phase
  traffic := traffic

/-- Record an instruction that has been carried out, unless nothing is to be kept, and
count it. -/
def complete (m : Machine) (pc word : UInt16) (form : Form) (traffic : List Transfer) :
    Machine :=
  if m.traceLimit = 0 then { m with cycles := m.cycles + 1 }
  else
    let entry := m.traceEntry pc word form traffic
    { m with timeline := m.timeline.record m.traceLimit entry, cycles := m.cycles + 1 }

/-- Execute the instruction at the program counter, or halt there. -/
def dispatch (m : Machine) : Outcome :=
  let pc := m.pc
  let word := m.fetch pc
  let i := decode word
  match m.refusal? i with
  | some kind => m.halt ⟨kind, word, pc⟩
  | none =>
    let traffic := if m.traceLimit = 0 then [] else m.traffic i
    { machine := (m.execute i).complete pc word i.form traffic }

/-- One step: an instruction, a look at the keys, or nothing once halted. -/
def step (m : Machine) : Outcome :=
  match m.activity with
  | .running => m.dispatch
  | .awaitingKey register seen => { machine := m.poll register seen }
  | .halted fault => { machine := m, fault? := some fault }

/-- Let both timers go down by one. -/
def countDown (m : Machine) : Machine :=
  { m with
    delay := if m.delay = 0 then 0 else m.delay - 1
    sound := if m.sound = 0 then 0 else m.sound - 1 }

/-- Steps until a number of them are done, a fault arises, or the machine waits for a key.
A step without a fault announces nothing, so only the last one can have announced
something. -/
def steps : Nat → Machine → Outcome
  | 0, m => { machine := m }
  | count + 1, m =>
    let o := m.step
    if o.fault?.isSome || o.machine.isWaiting then o else steps count o.machine

/-- One frame: a number of steps and a tick of the timers.  A fault ends it at once, and
then it does not count as a frame. -/
def runFrame (m : Machine) (stepsPerFrame : Nat) : Outcome :=
  match m.activity with
  | .halted fault => { machine := m, fault? := some fault }
  | _ =>
    let o := steps stepsPerFrame m
    match o.fault? with
    | some _ => o
    | none =>
      let after := o.machine.countDown
      { o with machine := { after with frames := after.frames + 1 } }

/-! ### Steps and frames by what the machine is doing -/

theorem step_of_running {m : Machine} (h : m.activity = .running) : m.step = m.dispatch := by
  simp only [step, h]

theorem step_of_awaitingKey {m : Machine} {register : Register} {seen : Keypad}
    (h : m.activity = .awaitingKey register seen) :
    m.step = { machine := m.poll register seen } := by
  simp only [step, h]

theorem step_of_halted {m : Machine} {fault : Fault} (h : m.activity = .halted fault) :
    m.step = { machine := m, fault? := some fault } := by
  simp only [step, h]

/-- A frame of a halted machine changes nothing. -/
theorem runFrame_of_halted {m : Machine} {fault : Fault} (h : m.activity = .halted fault)
    (stepsPerFrame : Nat) :
    m.runFrame stepsPerFrame = { machine := m, fault? := some fault } := by
  simp only [runFrame, h]

/-- An instruction that is refused halts the machine where it is. -/
theorem dispatch_of_refused {m : Machine} {kind : FaultKind}
    (h : m.refusal? (decode (m.fetch m.pc)) = some kind) :
    m.dispatch = m.halt ⟨kind, m.fetch m.pc, m.pc⟩ := by
  simp only [dispatch, h]

/-- An instruction that is not refused is carried out and then recorded. -/
theorem dispatch_of_accepted {m : Machine} (h : m.refusal? (decode (m.fetch m.pc)) = none) :
    m.dispatch =
      { machine :=
          (m.execute (decode (m.fetch m.pc))).complete m.pc (m.fetch m.pc)
            (decode (m.fetch m.pc)).form
            (if m.traceLimit = 0 then [] else m.traffic (decode (m.fetch m.pc))) } := by
  simp only [dispatch, h]

/-- An instruction that is not refused reports no fault. -/
theorem fault?_dispatch_of_accepted {m : Machine}
    (h : m.refusal? (decode (m.fetch m.pc)) = none) : m.dispatch.fault? = none := by
  simp only [dispatch, h]

/-! ### Notices -/

/-- A step without a fault announces nothing. -/
theorem notices_step {m : Machine} (h : m.step.fault? = none) : m.step.notices = [] := by
  cases activity : m.activity with
  | running =>
    rw [step_of_running activity] at h ⊢
    cases refused : m.refusal? (decode (m.fetch m.pc)) with
    | none => simp only [dispatch, refused]
    | some kind => simp [dispatch_of_refused refused, halt] at h
  | awaitingKey register seen => rw [step_of_awaitingKey activity]
  | halted fault => rw [step_of_halted activity]

/-- Steps without a fault announce nothing. -/
theorem notices_steps {count : Nat} {m : Machine} (h : (steps count m).fault? = none) :
    (steps count m).notices = [] := by
  induction count generalizing m with
  | zero => rfl
  | succ count ih =>
    unfold steps at h ⊢
    dsimp only at h ⊢
    split
    · next stop =>
      simp only [stop, if_true] at h
      exact notices_step h
    · next more =>
      simp only [more] at h
      exact ih h

/-- A frame without a fault announces nothing. -/
theorem notices_runFrame {m : Machine} {stepsPerFrame : Nat}
    (h : (m.runFrame stepsPerFrame).fault? = none) : (m.runFrame stepsPerFrame).notices = [] := by
  cases faulted : (steps stepsPerFrame m).fault? with
  | none =>
    unfold runFrame
    split
    · rfl
    · simp only [faulted]
      exact notices_steps faulted
  | some fault =>
    unfold runFrame at h
    split at h
    · simp at h
    · simp [faulted] at h

end Machine

end Chip8
