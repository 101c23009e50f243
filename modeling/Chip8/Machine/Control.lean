import Chip8.Machine.Operation

namespace Chip8

/-!
# The run state as it is stored

`Activity` says of the run state what is in use.  What is stored of it is more: a fault, the number
of a register and the keys of the last look have fields of their own, and what they hold stays there
when it is out of use.  Here machines store these fields, and everything that they do is decided by
them.

* `FaultRecord`, `Control` — the fields.
* `Control.halt`, `Control.await`, `Control.resume`, `Control.look`, `Control.reset` — the changes
  that are made to them.
* `ControlledMachine` — a machine that stores the fields; `ControlledMachine.step?` and
  `ControlledMachine.perform?` are its steps and operations, and they fail if a key is to be put
  into a register that is not there.
-/

/-- What is stored of a fault.  Without a cause there is none. -/
structure FaultRecord where
  /-- The cause. -/
  kind? : Option FaultKind := none
  /-- The word that was to be executed. -/
  word : UInt16 := 0
  /-- The address of that word. -/
  address : UInt16 := 0
  deriving DecidableEq, Repr

namespace FaultRecord

/-- The record of a fault. -/
def ofFault (fault : Fault) : FaultRecord where
  kind? := some fault.kind
  word := fault.word
  address := fault.address

/-- A record tells which fault it is of. -/
theorem ofFault_inj {fault fault' : Fault} : ofFault fault = ofFault fault' ↔ fault = fault' := by
  cases fault
  cases fault'
  simp [ofFault]

/-- The record of what may be a fault. -/
def ofFault? : Option Fault → FaultRecord
  | some fault => ofFault fault
  | none => {}

/-- Whether there is a fault. -/
def isFault (r : FaultRecord) : Bool := r.kind?.isSome

@[simp] theorem isFault_ofFault? (fault? : Option Fault) :
    (ofFault? fault?).isFault = fault?.isSome := by
  cases fault? <;> rfl

end FaultRecord

/-- The fields in which the run state is stored. -/
structure Control where
  /-- Which of the three run states it is. -/
  phase : Phase := .running
  /-- The fault that stopped the machine. -/
  fault : FaultRecord := {}
  /-- The number of the register that is to receive a key. -/
  register : UInt8 := 0
  /-- The keys that were down at the last look. -/
  seen : Keypad := .released
  deriving DecidableEq

namespace Control

/-- Stop for good. -/
def halt (c : Control) (fault : Fault) : Control :=
  { c with phase := .halted, fault := .ofFault fault }

/-- Start to wait for a key that is not down by now. -/
def await (c : Control) (register : Register) (keys : Keypad) : Control :=
  { c with phase := .awaitingKey, register := UInt8.ofNat register.val, seen := keys }

/-- End a wait. -/
def resume (c : Control) : Control := { c with phase := .running }

/-- Go on waiting after a look at the keys. -/
def look (c : Control) (keys : Keypad) : Control := { c with seen := keys }

/-- Give every field the value that it has at power-on. -/
def reset (c : Control) : Control :=
  { c with phase := .running, fault := {}, register := 0, seen := .released }

/-- No field is forgotten. -/
theorem reset_eq_powerOn (c : Control) : c.reset = {} := rfl

/-- The fields after an instruction that can be carried out: only a wait for a key changes them. -/
def execute (c : Control) (i : Instruction) (keys : Keypad) : Control :=
  match i with
  | .awaitKey x => c.await x keys
  | _ => c

end Control

/-- The register with a number, if there is one. -/
def Register.ofNumber? (number : Nat) : Option Register :=
  if h : number < 16 then some ⟨number, h⟩ else none

@[simp] theorem Register.ofNumber?_val (x : Register) : Register.ofNumber? x.val = some x := by
  simp [ofNumber?]

/-- A machine that stores its run state in fields of its own. -/
structure ControlledMachine where
  /-- All the rest of the machine; what it says about a run state is not looked at. -/
  rest : Machine
  /-- The fields of the run state. -/
  control : Control

/-- What an operation leaves behind. -/
structure ControlledOutcome where
  /-- The machine afterwards. -/
  machine : ControlledMachine
  /-- The fault that the operation reports, if any. -/
  fault : FaultRecord := {}
  /-- What was announced meanwhile. -/
  notices : List Notice := []

namespace ControlledMachine

/-- A machine just powered on. -/
def powerOn (dialect : Dialect) (traceLimit : Nat) (random : RandomSource) : ControlledMachine where
  rest := .powerOn dialect traceLimit random
  control := {}

/-! ### Steps -/

/-- Stop the machine at the current instruction. -/
def halt (s : ControlledMachine) (fault : Fault) : ControlledOutcome where
  machine := { s with control := s.control.halt fault }
  fault := .ofFault fault
  notices := [.halted fault]

/-- Look at the keys while waiting. -/
def poll? (s : ControlledMachine) : Option ControlledMachine :=
  match s.rest.keys.firstPressed? s.control.seen with
  | some key => do
    let register ← Register.ofNumber? s.control.register.toNat
    some
      { rest := s.rest.next.setReg register (UInt8.ofNat key.val)
        control := s.control.resume }
  | none => some { s with control := s.control.look s.rest.keys }

/-- Record an instruction that has been carried out, unless nothing is to be kept, and count it. -/
def complete (s : ControlledMachine) (pc word : UInt16) (form : Form) (traffic : List Transfer) :
    ControlledMachine :=
  let m := s.rest
  if m.traceLimit = 0 then { s with rest := { m with cycles := m.cycles + 1 } }
  else
    let entry := { m.traceEntry pc word form traffic with phase := s.control.phase }
    { s with
      rest := { m with timeline := m.timeline.record m.traceLimit entry, cycles := m.cycles + 1 } }

/-- Execute the instruction at the program counter, or halt there. -/
def dispatch (s : ControlledMachine) : ControlledOutcome :=
  let m := s.rest
  let pc := m.pc
  let word := m.fetch pc
  let i := decode word
  match m.refusal? i with
  | some kind => s.halt ⟨kind, word, pc⟩
  | none =>
    let traffic := if m.traceLimit = 0 then [] else m.traffic i
    let after : ControlledMachine :=
      { rest := m.execute i, control := s.control.execute i m.keys }
    { machine := after.complete pc word i.form traffic }

/-- One step. -/
def step? (s : ControlledMachine) : Option ControlledOutcome :=
  match s.control.phase with
  | .running => some s.dispatch
  | .awaitingKey => do
    let after ← s.poll?
    some { machine := after }
  | .halted => some { machine := s, fault := s.control.fault }

/-- Steps until a number of them are done, a fault arises, or the machine waits for a key. -/
def steps? : Nat → ControlledMachine → Option ControlledOutcome
  | 0, s => some { machine := s }
  | count + 1, s => do
    let o ← s.step?
    if o.fault.isFault || o.machine.control.phase == .awaitingKey then some o
    else steps? count o.machine

/-- One frame. -/
def runFrame? (s : ControlledMachine) (stepsPerFrame : Nat) : Option ControlledOutcome :=
  match s.control.phase with
  | .halted => some { machine := s, fault := s.control.fault }
  | _ => do
    let o ← steps? stepsPerFrame s
    if o.fault.isFault then some o
    else
      let after := o.machine.rest.countDown
      some
        { o with
          machine := { o.machine with rest := { after with frames := after.frames + 1 } } }

/-! ### Operations -/

/-- Every field as at power-on; how the machine was set up stays. -/
def reset (s : ControlledMachine) : ControlledMachine where
  rest := s.rest.reset
  control := s.control.reset

/-- Reset the machine and put a program into its memory, if it fits. -/
def load (s : ControlledMachine) (program : List UInt8) : ControlledOutcome :=
  if program.length ≤ programCapacity then
    let after := s.reset
    let memory := Memory.initial.writeFrom programStart program
    { machine := { after with rest := { after.rest with memory := memory } }
      notices := [.loaded program.length] }
  else
    { machine := s
      fault := .ofFault Machine.oversizedFault
      notices := [.oversized program.length] }

/-- What an operation leaves behind. -/
def perform? (s : ControlledMachine) (o : Operation) : Option ControlledOutcome :=
  match o with
  | .reset => some { machine := s.reset }
  | .load program => some (s.load program)
  | .step => s.step?
  | .frame count => s.runFrame? count
  | .key _ _ | .countDown | .setDialect _ | .setTraceLimit _ | .poke _ _ =>
    -- the run state has no part in these
    some { machine := { s with rest := (o.perform s.rest).machine } }

/-- What the operations of a history leave behind, one after the other. -/
def outcomes? (s : ControlledMachine) : List Operation → Option (List ControlledOutcome)
  | [] => some []
  | o :: history => do
    let left ← s.perform? o
    let later ← left.machine.outcomes? history
    some (left :: later)

/-- The machine after the operations of a history. -/
def after? (s : ControlledMachine) : List Operation → Option ControlledMachine
  | [] => some s
  | o :: history => do
    let left ← s.perform? o
    left.machine.after? history

/-- A machine that comes from power-on by operations of some kind. -/
inductive Reachable (allowed : Operation → Prop) : ControlledMachine → Prop where
  /-- A machine just powered on. -/
  | powerOn (dialect : Dialect) (traceLimit : Nat) (random : RandomSource) :
      Reachable allowed (powerOn dialect traceLimit random)
  /-- A machine after one more operation. -/
  | perform {s : ControlledMachine} {o : Operation} {left : ControlledOutcome}
      (before : Reachable allowed s) (h : allowed o) (done : s.perform? o = some left) :
      Reachable allowed left.machine

end ControlledMachine

end Chip8
