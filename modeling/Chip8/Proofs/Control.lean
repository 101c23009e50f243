import Chip8.Machine.Control
import Chip8.Proofs.Histories
import Mathlib.Data.List.Forall2
import Mathlib.Logic.Relation

namespace Chip8

/-!
# The stored run state shows what a machine is doing

Of the fields in which the run state is stored, only some are in use at a time.  Those show an
activity, and a machine that is controlled by the fields does what the machine with that activity
does, whatever the other fields hold.

* `Control.Shows`, `ControlledMachine.Shows`, `ControlledOutcome.Shows` — fields in use show an
  activity, and so a machine or an outcome.
* `ControlledMachine.Shows.step`, `ControlledMachine.Shows.runFrame`,
  `ControlledMachine.Shows.perform`, `ControlledMachine.Shows.outcomes` — a controlled machine never
  fails, and does what the machine does that it shows.
* `ControlledMachine.Reachable.exists_shows`, `Machine.Reachable.exists_shown` — so the machines
  that can be reached are the ones that are shown.
* `Control.Move`, `ControlledMachine.moves_perform` — what an operation can do to the fields.
* `Control.Sound`, `ControlledMachine.Reachable.sound` — there is a fault in them only if the
  machine has halted, and always the number of a register.
-/

/-! ### Fields in use -/

/-- The fields in use say what a machine is doing. -/
inductive Control.Shows (c : Control) : Activity → Prop where
  /-- The machine runs; no other field is in use. -/
  | running (phase : c.phase = .running) : Shows c .running
  /-- The machine waits; the number and the keys are in use. -/
  | awaitingKey {register : Register} (phase : c.phase = .awaitingKey)
      (number : c.register.toNat = register.val) : Shows c (.awaitingKey register c.seen)
  /-- The machine has halted; the fault is in use. -/
  | halted {fault : Fault} (phase : c.phase = .halted) (stored : c.fault = .ofFault fault) :
      Shows c (.halted fault)

theorem Control.Shows.phase {c : Control} {a : Activity} (h : c.Shows a) : c.phase = a.phase := by
  cases h with
  | running phase | awaitingKey phase | halted phase => exact phase

/-- A controlled machine shows a machine: its fields show the activity, and the rest is the same. -/
structure ControlledMachine.Shows (s : ControlledMachine) (m : Machine) : Prop where
  /-- The rest is the same. -/
  rest : m = { s.rest with activity := m.activity }
  /-- The fields show the activity. -/
  control : s.control.Shows m.activity

/-- A controlled outcome shows an outcome. -/
structure ControlledOutcome.Shows (left : ControlledOutcome) (o : Outcome) : Prop where
  /-- The machine is shown. -/
  machine : left.machine.Shows o.machine
  /-- The same fault is reported, if any is. -/
  fault : left.fault = .ofFault? o.fault?
  /-- The same is announced. -/
  notices : left.notices = o.notices

/-- The outcomes of a history start with that of its first operation. -/
theorem ControlledMachine.outcomes?_cons {s : ControlledMachine} {o : Operation}
    {history : List Operation} {left : ControlledOutcome} {lefts : List ControlledOutcome}
    (done : s.perform? o = some left) (later : left.machine.outcomes? history = some lefts) :
    s.outcomes? (o :: history) = some (left :: lefts) := by
  rw [outcomes?, done]
  dsimp only [Option.bind_eq_bind, Option.bind_some]
  rw [later]
  rfl

namespace ControlledMachine

variable {s after : ControlledMachine}

/-- A look at the keys that finds one puts it into the register that was waiting. -/
theorem poll?_of_pressed {key : Key} {register : Register}
    (pressed : s.rest.keys.firstPressed? s.control.seen = some key)
    (number : s.control.register.toNat = register.val) :
    s.poll? = some
      { rest := s.rest.next.setReg register (UInt8.ofNat key.val)
        control := s.control.resume } := by
  simp only [poll?, pressed, number, Register.ofNumber?_val]
  rfl

/-- A look that finds none remembers the keys. -/
theorem poll?_of_none (unpressed : s.rest.keys.firstPressed? s.control.seen = none) :
    s.poll? = some { s with control := s.control.look s.rest.keys } := by
  simp only [poll?, unpressed]

/-- A step of a machine that waits is a look at the keys. -/
theorem step?_of_awaitingKey (waiting : s.control.phase = .awaitingKey)
    (polled : s.poll? = some after) : s.step? = some { machine := after } := by
  rw [step?, waiting, polled]
  rfl

end ControlledMachine

namespace ControlledMachine.Shows

variable {s : ControlledMachine} {m : Machine}

/-- What is shown is the rest with some activity that the fields show. -/
theorem exists_activity (h : s.Shows m) :
    ∃ a, s.control.Shows a ∧ m = { s.rest with activity := a } :=
  ⟨m.activity, h.control, h.rest⟩

/-! ### One step -/

theorem halt (h : s.Shows m) (fault : Fault) : (s.halt fault).Shows (m.halt fault) := by
  obtain ⟨a, -, rfl⟩ := h.exists_activity
  exact ⟨⟨rfl, .halted rfl rfl⟩, rfl, rfl⟩

/-- An instruction that is no wait for a key goes by the activity. -/
theorem execute_of_form_ne {i : Instruction} (other : i.form ≠ .awaitKey) (r : Machine)
    (a : Activity) :
    Machine.execute { r with activity := a } i = { r.execute i with activity := a } := by
  cases i with
  | awaitKey x => exact absurd rfl other
  | _ => rfl

/-- An instruction leaves fields that show the activity after it. -/
theorem execute (h : s.Shows m) (i : Instruction) :
    Shows { rest := s.rest.execute i, control := s.control.execute i s.rest.keys }
      (m.execute i) := by
  obtain ⟨a, shows, rfl⟩ := h.exists_activity
  by_cases form : i.form = .awaitKey
  · cases i with
    | awaitKey x =>
      have number : (UInt8.ofNat x.val).toNat = x.val := by
        rw [UInt8.toNat_ofNat']
        omega
      exact ⟨rfl, .awaitingKey rfl number⟩
    | _ => cases form
  · -- nothing else touches the run state, so it is carried along
    have same : s.control.execute i s.rest.keys = s.control := by
      cases i with
      | awaitKey x => exact absurd rfl form
      | _ => rfl
    rw [execute_of_form_ne form s.rest a, same]
    exact ⟨rfl, shows⟩

/-- What is recorded of an instruction has the phase in it that is stored. -/
theorem complete (h : s.Shows m) (pc word : UInt16) (form : Form) (traffic : List Transfer) :
    (s.complete pc word form traffic).Shows (m.complete pc word form traffic) := by
  obtain ⟨a, shows, rfl⟩ := h.exists_activity
  unfold ControlledMachine.complete Machine.complete
  by_cases nothing : s.rest.traceLimit = 0
  · simp only [nothing, if_true]
    exact ⟨rfl, shows⟩
  · simp only [nothing, if_false, shows.phase]
    exact ⟨rfl, shows⟩

theorem dispatch (h : s.Shows m) : s.dispatch.Shows m.dispatch := by
  have same : m.pc = s.rest.pc ∧ m.fetch m.pc = s.rest.fetch s.rest.pc ∧
      m.traceLimit = s.rest.traceLimit ∧
      ∀ i, m.refusal? i = s.rest.refusal? i ∧ m.traffic i = s.rest.traffic i := by
    obtain ⟨a, -, rfl⟩ := h.exists_activity
    exact ⟨rfl, rfl, rfl, fun i => ⟨rfl, rfl⟩⟩
  obtain ⟨pc, word, limit, instruction⟩ := same
  obtain ⟨refusal, traffic⟩ := instruction (decode (s.rest.fetch s.rest.pc))
  rw [Machine.dispatch, ControlledMachine.dispatch]
  simp only [pc ▸ word, pc, limit, refusal, traffic]
  cases s.rest.refusal? (decode (s.rest.fetch s.rest.pc)) with
  | some kind => exact h.halt _
  | none => exact ⟨(h.execute _).complete .., rfl, rfl⟩

/-- A look at the keys finds the register that is to receive one. -/
theorem poll {register : Register} {seen : Keypad} (h : s.Shows m)
    (waiting : m.activity = .awaitingKey register seen) :
    ∃ after, s.poll? = some after ∧ after.Shows (m.poll register seen) := by
  obtain ⟨a, shows, rfl⟩ := h.exists_activity
  obtain rfl : a = .awaitingKey register seen := waiting
  cases shows with
  | awaitingKey phase number =>
    cases pressed : s.rest.keys.firstPressed? s.control.seen with
    | none =>
      refine ⟨_, poll?_of_none pressed, ?_⟩
      simp only [Machine.poll, pressed]
      exact ⟨rfl, .awaitingKey phase number⟩
    | some key =>
      refine ⟨_, poll?_of_pressed pressed number, ?_⟩
      simp only [Machine.poll, pressed]
      exact ⟨rfl, .running rfl⟩

theorem of_halted {fault : Fault} (h : s.Shows m) (halted : m.activity = .halted fault) :
    s.control.phase = .halted ∧ s.control.fault = .ofFault fault := by
  have control := h.control
  rw [halted] at control
  cases control with
  | halted phase stored => exact ⟨phase, stored⟩

theorem of_awaitingKey_phase (h : s.Shows m) (phase : s.control.phase = .awaitingKey) :
    ∃ register : Register, s.control.register.toNat = register.val ∧
      m.activity = .awaitingKey register s.control.seen := by
  have control := h.control
  generalize m.activity = a at control ⊢
  cases control with
  | awaitingKey _ number => exact ⟨_, number, rfl⟩
  | running phase' | halted phase' =>
    rw [phase] at phase'
    cases phase'

theorem of_halted_phase (h : s.Shows m) (phase : s.control.phase = .halted) :
    ∃ fault, s.control.fault = .ofFault fault ∧ m.activity = .halted fault := by
  have control := h.control
  generalize m.activity = a at control ⊢
  cases control with
  | halted _ stored => exact ⟨_, stored, rfl⟩
  | running phase' | awaitingKey phase' =>
    rw [phase] at phase'
    cases phase'

/-- A step never fails, and does what the machine does that is shown. -/
theorem step (h : s.Shows m) : ∃ left, s.step? = some left ∧ left.Shows m.step := by
  have phase := h.control.phase
  cases activity : m.activity with
  | running =>
    rw [activity] at phase
    rw [Machine.step_of_running activity, step?, phase]
    exact ⟨_, rfl, h.dispatch⟩
  | awaitingKey register seen =>
    obtain ⟨after, polled, shows⟩ := h.poll activity
    rw [activity] at phase
    rw [Machine.step_of_awaitingKey activity]
    exact ⟨_, step?_of_awaitingKey phase polled, shows, rfl, rfl⟩
  | halted fault =>
    rw [activity] at phase
    rw [Machine.step_of_halted activity, step?, phase]
    exact ⟨_, rfl, h, (h.of_halted activity).2, rfl⟩

/-! ### Many steps -/

theorem isWaiting (h : s.Shows m) : (s.control.phase == .awaitingKey) = m.isWaiting := by
  rw [Machine.isWaiting, h.control.phase]

theorem steps (h : s.Shows m) (count : Nat) :
    ∃ left, steps? count s = some left ∧ left.Shows (Machine.steps count m) := by
  induction count generalizing s m with
  | zero => exact ⟨_, rfl, h, rfl, rfl⟩
  | succ count ih =>
    obtain ⟨left, done, shows⟩ := h.step
    obtain ⟨left', done', shows'⟩ := ih shows.machine
    -- both machines stop at the same step
    have stops : (left.fault.isFault || left.machine.control.phase == .awaitingKey) =
        (m.step.fault?.isSome || m.step.machine.isWaiting) := by
      rw [shows.fault, FaultRecord.isFault_ofFault?, shows.machine.isWaiting]
    rw [steps?, Machine.steps, done]
    dsimp only [Option.bind_eq_bind, Option.bind_some]
    rw [stops]
    split
    · exact ⟨left, rfl, shows⟩
    · exact ⟨left', done', shows'⟩

/-- The end of a frame counts it, whatever the run state is. -/
theorem frameEnd (h : s.Shows m) :
    Shows { s with rest := { s.rest.countDown with frames := s.rest.countDown.frames + 1 } }
      { m.countDown with frames := m.countDown.frames + 1 } := by
  obtain ⟨a, shows, rfl⟩ := h.exists_activity
  exact ⟨rfl, shows⟩

theorem runFrame (h : s.Shows m) (count : Nat) :
    ∃ left, s.runFrame? count = some left ∧ left.Shows (m.runFrame count) := by
  cases halted : m.isHalted with
  | true =>
    obtain ⟨fault, activity⟩ := m.isHalted_iff.mp halted
    obtain ⟨phase, stored⟩ := h.of_halted activity
    rw [Machine.runFrame_of_halted activity, runFrame?, phase]
    exact ⟨_, rfl, h, stored, rfl⟩
  | false =>
    obtain ⟨left, done, shows⟩ := h.steps count
    have going : s.control.phase ≠ .halted := by
      rw [h.control.phase]
      simpa [Machine.isHalted] using halted
    -- a machine that runs and one that waits take the same branch
    have frame : s.runFrame? count =
        if left.fault.isFault then some left
        else
          some { left with
            machine := { left.machine with
              rest := { left.machine.rest.countDown with
                frames := left.machine.rest.countDown.frames + 1 } } } := by
      unfold runFrame?
      rw [done]
      cases phase : s.control.phase with
      | halted => exact absurd phase going
      | running | awaitingKey => rfl
    have stops : left.fault.isFault = (Machine.steps count m).fault?.isSome := by
      rw [shows.fault, FaultRecord.isFault_ofFault?]
    rw [frame, Machine.runFrame_of_not_halted halted, stops]
    cases (Machine.steps count m).fault? with
    | some fault => exact ⟨left, rfl, shows⟩
    | none => exact ⟨_, rfl, shows.machine.frameEnd, shows.fault, shows.notices⟩

/-! ### Operations -/

theorem reset (h : s.Shows m) : s.reset.Shows m.reset := by
  obtain ⟨a, -, rfl⟩ := h.exists_activity
  exact ⟨rfl, .running rfl⟩

theorem load (h : s.Shows m) (program : List UInt8) : (s.load program).Shows (m.load program) := by
  unfold ControlledMachine.load Machine.load
  split
  · obtain ⟨a, -, rfl⟩ := h.exists_activity
    exact ⟨⟨rfl, .running rfl⟩, rfl, rfl⟩
  · exact ⟨h, rfl, rfl⟩

/-- An operation never fails, and does what it does to the machine that is shown. -/
theorem perform (h : s.Shows m) (o : Operation) :
    ∃ left, s.perform? o = some left ∧ left.Shows (o.perform m) := by
  cases o with
  | reset => exact ⟨_, rfl, h.reset, rfl, rfl⟩
  | load program => exact ⟨_, rfl, h.load program⟩
  | step => exact h.step
  | frame count => exact h.runFrame count
  | key | countDown | setDialect | setTraceLimit | poke =>
    obtain ⟨a, shows, rfl⟩ := h.exists_activity
    exact ⟨_, rfl, ⟨rfl, shows⟩, rfl, rfl⟩

/-- So do all operations of a history. -/
theorem outcomes (h : s.Shows m) (history : List Operation) :
    ∃ lefts, s.outcomes? history = some lefts ∧
      List.Forall₂ ControlledOutcome.Shows lefts (m.outcomes history) := by
  induction history generalizing s m with
  | nil => exact ⟨[], rfl, .nil⟩
  | cons o history ih =>
    obtain ⟨left, done, shows⟩ := h.perform o
    obtain ⟨lefts, later, all⟩ := ih shows.machine
    exact ⟨left :: lefts, outcomes?_cons done later, .cons shows all⟩

end ControlledMachine.Shows

/-! ### Machines that can be reached -/

section Reachable

variable {allowed : Operation → Prop}

/-- A controlled machine that can be reached shows a machine that can be reached. -/
theorem ControlledMachine.Reachable.exists_shows {s : ControlledMachine} (h : s.Reachable allowed) :
    ∃ m : Machine, m.Reachable allowed ∧ s.Shows m := by
  induction h with
  | powerOn dialect traceLimit random =>
    exact ⟨_, .powerOn dialect traceLimit random, rfl, .running rfl⟩
  | @perform s o left before ok done ih =>
    obtain ⟨m, reachable, shows⟩ := ih
    obtain ⟨left', done', shows'⟩ := shows.perform o
    obtain rfl : left = left' := Option.some.inj (done.symm.trans done')
    exact ⟨_, reachable.perform ok, shows'.machine⟩

/-- Operations lead from a controlled machine that can be reached to another. -/
theorem ControlledMachine.Reachable.after {s s' : ControlledMachine} (h : s.Reachable allowed)
    {history : List Operation} (ok : ∀ o ∈ history, allowed o) (done : s.after? history = some s') :
    s'.Reachable allowed := by
  induction history generalizing s with
  | nil =>
    cases done
    exact h
  | cons o history ih =>
    obtain ⟨left, here, later⟩ := Option.bind_eq_some_iff.mp done
    obtain ⟨first, others⟩ := List.forall_mem_cons.mp ok
    exact ih (h.perform first here) others later

/-- Every machine that can be reached is shown by a controlled machine that can be reached. -/
theorem Machine.Reachable.exists_shown {m : Machine} (h : m.Reachable allowed) :
    ∃ s : ControlledMachine, s.Reachable allowed ∧ s.Shows m := by
  induction h with
  | powerOn dialect traceLimit random =>
    exact ⟨_, .powerOn dialect traceLimit random, rfl, .running rfl⟩
  | @perform m o before ok ih =>
    obtain ⟨s, reachable, shows⟩ := ih
    obtain ⟨left, done, shows'⟩ := shows.perform o
    exact ⟨_, reachable.perform ok done, shows'.machine⟩

end Reachable

/-! ### Fields out of use -/

/-- What can happen to the fields, and in which phase. -/
inductive Control.Move (c : Control) : Control → Prop where
  /-- A machine that runs halts. -/
  | halt (running : c.phase = .running) (fault : Fault) : Move c (c.halt fault)
  /-- A machine that runs begins to wait. -/
  | await (running : c.phase = .running) (x : Register) (keys : Keypad) : Move c (c.await x keys)
  /-- A machine that waits finds its key. -/
  | resume (waiting : c.phase = .awaitingKey) : Move c c.resume
  /-- A machine that waits goes on waiting. -/
  | look (waiting : c.phase = .awaitingKey) (keys : Keypad) : Move c (c.look keys)
  /-- A machine is reset. -/
  | reset : Move c c.reset

/-- Some moves one after another, perhaps none. -/
abbrev Control.Moves : Control → Control → Prop := Relation.ReflTransGen Control.Move

namespace ControlledMachine

variable {s : ControlledMachine} {left : ControlledOutcome}

theorem control_complete (pc word : UInt16) (form : Form) (traffic : List Transfer) :
    (s.complete pc word form traffic).control = s.control := by
  unfold complete
  dsimp only
  split <;> rfl

theorem moves_dispatch (running : s.control.phase = .running) :
    s.control.Moves s.dispatch.machine.control := by
  rw [dispatch]
  cases s.rest.refusal? (decode (s.rest.fetch s.rest.pc)) with
  | some kind => exact .single (.halt running _)
  | none =>
    dsimp only
    rw [control_complete]
    -- of all instructions only a wait for a key makes a move
    cases decode (s.rest.fetch s.rest.pc) with
    | awaitKey x => exact .single (.await running x _)
    | _ => exact .refl

/-- A step makes at most one move. -/
theorem moves_step (done : s.step? = some left) : s.control.Moves left.machine.control := by
  unfold step? at done
  cases phase : s.control.phase with
  | running =>
    rw [phase] at done
    cases done
    exact moves_dispatch phase
  | halted =>
    rw [phase] at done
    cases done
    exact .refl
  | awaitingKey =>
    rw [phase] at done
    obtain ⟨after, polled, same⟩ := Option.bind_eq_some_iff.mp done
    cases same
    unfold poll? at polled
    split at polled
    · obtain ⟨register, -, same⟩ := Option.bind_eq_some_iff.mp polled
      cases same
      exact .single (.resume phase)
    · cases polled
      exact .single (.look phase _)

theorem moves_steps {count : Nat} (done : steps? count s = some left) :
    s.control.Moves left.machine.control := by
  induction count generalizing s with
  | zero =>
    cases done
    exact .refl
  | succ count ih =>
    obtain ⟨first, stepped, rest⟩ := Option.bind_eq_some_iff.mp done
    have here := moves_step stepped
    split at rest
    · cases rest
      exact here
    · exact here.trans (ih rest)

theorem moves_runFrame {count : Nat} (done : s.runFrame? count = some left) :
    s.control.Moves left.machine.control := by
  unfold runFrame? at done
  split at done
  · cases done
    exact .refl
  · obtain ⟨ended, taken, rest⟩ := Option.bind_eq_some_iff.mp done
    have moves := moves_steps taken
    split at rest
    · cases rest
      exact moves
    · cases rest
      exact moves

/-- An operation makes some moves. -/
theorem moves_perform {o : Operation} (done : s.perform? o = some left) :
    s.control.Moves left.machine.control := by
  cases o with
  | step => exact moves_step done
  | frame count => exact moves_runFrame done
  | reset =>
    cases done
    exact .single .reset
  | load program =>
    cases done
    unfold load
    split
    · exact .single .reset
    · exact .refl
  | key | countDown | setDialect | setTraceLimit | poke =>
    cases done
    exact .refl

end ControlledMachine

/-- There is a fault in the fields only if the machine has halted, and always the number of a
register. -/
structure Control.Sound (c : Control) : Prop where
  /-- A machine that runs or waits has no fault. -/
  fault : c.phase ≠ .halted → c.fault = {}
  /-- The number is that of a register, though none may be waiting. -/
  register : c.register.toNat ≤ 15

theorem Control.sound_powerOn : ({} : Control).Sound := ⟨fun _ => rfl, by decide⟩

/-- Every move keeps that. -/
theorem Control.Move.sound {c c' : Control} (h : c.Move c') (sound : c.Sound) : c'.Sound := by
  cases h with
  | halt => exact ⟨fun going => absurd rfl going, sound.register⟩
  | reset => exact Control.sound_powerOn
  | await running x keys =>
    refine ⟨fun _ => sound.fault (by simp [running]), ?_⟩
    show (UInt8.ofNat x.val).toNat ≤ 15
    rw [UInt8.toNat_ofNat']
    omega
  | resume waiting | look waiting =>
    exact ⟨fun _ => sound.fault (by simp [waiting]), sound.register⟩

theorem Control.Moves.sound {c c' : Control} (h : c.Moves c') (sound : c.Sound) : c'.Sound := by
  induction h with
  | refl => exact sound
  | tail _ move ih => exact move.sound ih

/-- So it holds in every machine that can be reached. -/
theorem ControlledMachine.Reachable.sound {allowed : Operation → Prop} {s : ControlledMachine}
    (h : s.Reachable allowed) : s.control.Sound := by
  induction h with
  | powerOn => exact Control.sound_powerOn
  | perform _ _ done ih => exact Control.Moves.sound (moves_perform done) ih

end Chip8
