import Chip8.Proofs.Lockstep

namespace Chip8

/-!
# Recording does not interfere

The timeline is written and never read, so a machine does the same whatever of its past it
records.  To say so, everything that is recorded is taken away: before an operation or after
it, that makes no difference.

* `Machine.untraced`, `Outcome.untraced` — a machine and an outcome without the record.
* `Machine.step_untraced`, `Machine.runFrame_untraced`, `Operation.perform_untraced` — taking
  the record away goes together with steps, frames and operations.
* `Machine.responses` — what the operations of a history leave behind.
* `responses_agree` — histories that differ in what is recorded leave the same behind.
-/

namespace Machine

/-- The machine with nothing recorded and nothing to be recorded. -/
def untraced (m : Machine) : Machine := { m with timeline := .empty, traceLimit := 0 }

end Machine

/-- The outcome without what the machine has recorded. -/
def Outcome.untraced (o : Outcome) : Outcome := { o with machine := o.machine.untraced }

/-- Whether an operation only says how much is to be recorded. -/
def Operation.setsTraceLimit : Operation → Bool
  | setTraceLimit _ => true
  | _ => false

namespace Machine

variable (m : Machine)

/-! ### Single instructions -/

/-- The record has no part in whether an instruction is refused. -/
theorem refusal?_untraced (i : Instruction) : m.untraced.refusal? i = m.refusal? i := by
  cases i <;> rfl

/-- No instruction reads the record or writes to it. -/
theorem execute_untraced (i : Instruction) : m.untraced.execute i = (m.execute i).untraced := by
  cases i <;> rfl

/-- Recording an instruction counts it and changes nothing else but the record. -/
theorem untraced_complete (pc word : UInt16) (form : Form) (traffic : List Transfer) :
    (m.complete pc word form traffic).untraced = { m.untraced with cycles := m.cycles + 1 } := by
  unfold complete
  split
  · rfl
  · rfl

/-- The instruction at the program counter does the same without the record. -/
theorem dispatch_untraced : m.untraced.dispatch = m.dispatch.untraced := by
  have same : m.untraced.refusal? (decode (m.untraced.fetch m.untraced.pc)) =
      m.refusal? (decode (m.fetch m.pc)) := refusal?_untraced m _
  cases reason : m.refusal? (decode (m.fetch m.pc)) with
  | some kind =>
    rw [reason] at same
    rw [dispatch_of_refused reason, dispatch_of_refused same]
    rfl
  | none =>
    rw [reason] at same
    rw [dispatch_of_accepted reason, dispatch_of_accepted same]
    -- what is recorded differs, but it is taken away again
    show Outcome.mk ((m.untraced.execute _).complete ..) _ _ =
      Outcome.mk ((m.execute _).complete ..).untraced _ _
    rw [untraced_complete, execute_untraced]
    rfl

/-! ### Steps, frames and operations -/

/-- A look at the keys does the same without the record. -/
theorem poll_untraced (register : Register) (seen : Keypad) :
    m.untraced.poll register seen = (m.poll register seen).untraced := by
  cases pressed : m.keys.firstPressed? seen with
  | none =>
    have pressed' : m.untraced.keys.firstPressed? seen = none := pressed
    simp only [poll, pressed, pressed']
    rfl
  | some key =>
    have pressed' : m.untraced.keys.firstPressed? seen = some key := pressed
    simp only [poll, pressed, pressed']
    rfl

/-- Nothing but instructions could notice that the record is taken away. -/
theorem neutral_untraced : Neutral untraced where
  activity _ := rfl
  poll := poll_untraced
  frameEnd _ := rfl

/-- A step does the same without the record. -/
theorem step_untraced : m.untraced.step = m.step.untraced :=
  step_onMachine neutral_untraced fun _ => dispatch_untraced m

/-- A frame does the same without the record. -/
theorem runFrame_untraced (count : Nat) :
    m.untraced.runFrame count = (m.runFrame count).untraced :=
  runFrame_onMachine neutral_untraced fun b _ => b.step_untraced

/-- A load does the same without the record. -/
theorem load_untraced (program : List UInt8) :
    m.untraced.load program = (m.load program).untraced := by
  unfold load
  split
  · rfl
  · rfl

end Machine

/-- Every operation does the same without the record, unless it is one that asks for it. -/
theorem Operation.perform_untraced {o : Operation} (h : o.setsTraceLimit = false) (m : Machine) :
    o.perform m.untraced = (o.perform m).untraced := by
  cases o with
  | load program => exact m.load_untraced program
  | step => exact m.step_untraced
  | frame count => exact m.runFrame_untraced count
  | setTraceLimit limit => cases h
  | reset | key | countDown | setDialect | poke => rfl

/-- An operation that asks for another record makes no difference without it. -/
theorem Operation.untraced_of_setsTraceLimit {o : Operation} (h : o.setsTraceLimit = true)
    (m : Machine) : (o.perform m).machine.untraced = m.untraced := by
  cases o with
  | setTraceLimit limit => rfl
  | _ => cases h

/-! ### Histories -/

namespace Machine

/-- What the operations of a history leave behind, one after the other.  Those that only say
how much is to be recorded are passed over. -/
def responses (m : Machine) : List Operation → List Outcome
  | [] => []
  | o :: history =>
    let later := (o.perform m).machine.responses history
    if o.setsTraceLimit then later else o.perform m :: later

/-- A history leaves behind what it would without any record. -/
theorem untraced_responses (m : Machine) (history : List Operation) :
    (m.responses history).map Outcome.untraced =
      m.untraced.responses (history.filter fun o => !o.setsTraceLimit) := by
  induction history generalizing m with
  | nil => rfl
  | cons o history ih =>
    have later := ih (o.perform m).machine
    cases sets : o.setsTraceLimit with
    | true =>
      rw [o.untraced_of_setsTraceLimit sets] at later
      simp only [responses, sets, if_true, List.filter_cons, Bool.not_true, Bool.false_eq_true,
        if_false]
      exact later
    | false =>
      -- the machine after the operation is the one after it without the record, untraced
      have here := o.perform_untraced sets m
      simp only [responses, sets, Bool.false_eq_true, if_false, List.filter_cons, Bool.not_false,
        if_true, List.map_cons, here]
      rw [later]
      rfl

end Machine

/-- Recording never interferes.  Take two machines that agree in everything but what they have
recorded and are to record, and two histories that agree in all operations but those that set
how much is recorded, which each may have at places and with values of its own.  Then each of
the common operations reports the same fault, announces the same and leaves machines behind
that agree again in everything but the record. -/
theorem responses_agree {m m' : Machine} (agree : m.untraced = m'.untraced)
    {history history' : List Operation}
    (common : (history.filter fun o => !o.setsTraceLimit) =
      history'.filter fun o => !o.setsTraceLimit) :
    (m.responses history).map Outcome.untraced =
      (m'.responses history').map Outcome.untraced := by
  calc (m.responses history).map Outcome.untraced
      = m.untraced.responses (history.filter fun o => !o.setsTraceLimit) :=
        m.untraced_responses history
    _ = m'.untraced.responses (history'.filter fun o => !o.setsTraceLimit) := by
        rw [agree, common]
    _ = (m'.responses history').map Outcome.untraced := (m'.untraced_responses history').symm

/-- A program that draws and stores before it runs into a word that is no instruction: one
machine records nothing, and the other one changes its mind about how much twice. -/
theorem responses_agree_nothing_recorded :
    let program := [0xD0, 0x15, 0xF2, 0x55, 0xFF, 0xFF]
    let m := Machine.powerOn {} 0 default
    let m' := Machine.powerOn {} 7 default
    let history := [.load program, .step, .frame 5]
    let history' := [.load program, .setTraceLimit 0, .step, .setTraceLimit 2, .frame 5]
    ((m.after history).timeline.size = 0 ∧ (m'.after history').timeline.size = 1) ∧
      (m.responses history).map Outcome.untraced =
        (m'.responses history').map Outcome.untraced := by
  intro program m m' history history'
  have sizes : (m.after history).timeline.size = 0 ∧ (m'.after history').timeline.size = 1 := by
    decide +kernel
  have agree : m.untraced = m'.untraced := rfl
  have common : (history.filter fun o => !o.setsTraceLimit) =
      history'.filter fun o => !o.setsTraceLimit := rfl
  exact ⟨sizes, responses_agree agree common⟩

end Chip8
