import Chip8.Machine.Step

namespace Chip8

/-!
# Operations and histories

Everything that can be done to a machine from outside is an operation.  A history is a list
of operations, and the machines that matter are those that some history leads to.

* `Operation.perform` — what an operation leaves behind.
* `Machine.after` — the machine after a history.
* `Machine.Reachable` — machines that come from power-on by operations of some kind.
-/

/-- Something that can be done to a machine from outside. -/
inductive Operation where
  /-- Bring the machine back to power-on. -/
  | reset
  /-- Load a program. -/
  | load (program : List UInt8)
  /-- Press or release a key. -/
  | key (number : Nat) (down : Bool)
  /-- Take one step. -/
  | step
  /-- Run one frame of some steps. -/
  | frame (steps : Nat)
  /-- Let the timers go down. -/
  | countDown
  /-- Read disputed instructions in another way. -/
  | setDialect (dialect : Dialect)
  /-- Keep another number of instructions in the timeline from now on. -/
  | setTraceLimit (limit : Nat)
  /-- Put a byte into memory. -/
  | poke (address : Address) (value : UInt8)
  deriving DecidableEq, Repr

/-- What an operation leaves behind. -/
def Operation.perform (o : Operation) (m : Machine) : Outcome :=
  match o with
  | reset => { machine := m.reset }
  | load program => m.load program
  | key number down => { machine := m.withKey number down }
  | step => m.step
  | frame steps => m.runFrame steps
  | countDown => { machine := m.countDown }
  | setDialect dialect => { machine := { m with dialect := dialect } }
  | setTraceLimit limit => { machine := { m with traceLimit := limit } }
  | poke address value => { machine := m.poke address value }

namespace Machine

/-- The machine after a history, the first operation first. -/
def after (m : Machine) (history : List Operation) : Machine :=
  history.foldl (fun m o => (o.perform m).machine) m

@[simp] theorem after_nil (m : Machine) : m.after [] = m := rfl

@[simp] theorem after_cons (m : Machine) (o : Operation) (history : List Operation) :
    m.after (o :: history) = (o.perform m).machine.after history := rfl

theorem after_append (m : Machine) (first second : List Operation) :
    m.after (first ++ second) = (m.after first).after second := by
  simp [after]

/-- A machine that comes from power-on by operations of some kind. -/
inductive Reachable (allowed : Operation → Prop) : Machine → Prop where
  /-- A machine just powered on. -/
  | powerOn (dialect : Dialect) (traceLimit : Nat) (random : RandomSource) :
      Reachable allowed (powerOn dialect traceLimit random)
  /-- A machine after one more operation. -/
  | perform {m : Machine} {o : Operation} (before : Reachable allowed m) (h : allowed o) :
      Reachable allowed (o.perform m).machine

/-- Histories of allowed operations lead to reachable machines. -/
theorem Reachable.after {allowed : Operation → Prop} {m : Machine}
    (before : Reachable allowed m) (history : List Operation) (h : ∀ o ∈ history, allowed o) :
    Reachable allowed (m.after history) := by
  induction history generalizing m with
  | nil => exact before
  | cons o rest ih =>
    refine ih (before.perform (h o (by simp))) ?_
    intro later mem
    exact h later (by simp [mem])

end Machine

end Chip8
