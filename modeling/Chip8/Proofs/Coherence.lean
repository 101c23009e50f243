import Chip8.Proofs.Control
import Chip8.Proofs.Dispatch

namespace Chip8

/-!
# What the machine is doing agrees with its memory

A machine that waits for a key or has halted stays on the instruction that made it do so.
As long as nobody but the program writes to memory, that instruction stays in memory too,
and the run state can be read off it.

* `Machine.Coherent` — the word at the program counter accounts for a wait and for a fault.
* `Machine.coherent_step` — a step keeps that.
* `Machine.HaltedBy` — what that says of the fault of a machine that has halted.
* `reachable_coherent` — so it holds of every machine that can be reached without writing
  to memory from outside, and of the fields in which it stores its run state.
-/

/-- Whether an operation writes to memory from outside, past the program. -/
def Operation.isPoke : Operation → Bool
  | poke _ _ => true
  | _ => false

namespace Machine

/-- The word at the program counter accounts for what the machine is doing. -/
structure Coherent (m : Machine) : Prop where
  /-- A machine that waits for a key is on the instruction that asks for one. -/
  waiting : ∀ {register : Register} {seen : Keypad},
    m.activity = .awaitingKey register seen → decode (m.fetch m.pc) = .awaitKey register
  /-- A machine that has halted is on the instruction that raised the fault, and that
  instruction would raise it again. -/
  halted : ∀ {fault : Fault}, m.activity = .halted fault →
    fault.address = m.pc ∧ fault.word = m.fetch m.pc ∧ m.FaultArises fault.kind

variable {m m' : Machine}

/-- Whether a fault arises depends on the word at the program counter and on the stack. -/
theorem FaultArises.congr {kind : FaultKind} (h : m.FaultArises kind)
    (word : m'.fetch m'.pc = m.fetch m.pc) (calls : m'.calls = m.calls) :
    m'.FaultArises kind := by
  unfold FaultArises at h ⊢
  rw [word, calls]
  exact h

/-- A machine that runs has nothing to account for. -/
theorem Coherent.of_running (running : m.activity = .running) : Coherent m := by
  refine ⟨?_, ?_⟩
  · intro register seen waiting
    rw [running] at waiting
    cases waiting
  · intro fault halted
    rw [running] at halted
    cases halted

/-- Only the run state, the program counter, memory and the call stack matter. -/
theorem Coherent.congr (h : Coherent m) (activity : m'.activity = m.activity)
    (pc : m'.pc = m.pc) (memory : m'.memory = m.memory) (calls : m'.calls = m.calls) :
    Coherent m' := by
  -- memory and the program counter only matter through the word that lies there
  have word : m'.fetch m'.pc = m.fetch m.pc := by rw [fetch, fetch, pc, memory]
  refine ⟨?_, ?_⟩
  · intro register seen waiting
    rw [activity] at waiting
    rw [word]
    exact h.waiting waiting
  · intro fault halted
    rw [activity] at halted
    obtain ⟨address, same, arises⟩ := h.halted halted
    rw [word, pc]
    exact ⟨address, same, arises.congr word calls⟩

/-- A machine that waits is coherent when it is on the instruction that asks for the key. -/
theorem Coherent.of_waiting {register : Register} {seen : Keypad}
    (waiting : m.activity = .awaitingKey register seen)
    (word : decode (m.fetch m.pc) = .awaitKey register) : Coherent m := by
  refine ⟨?_, ?_⟩
  · intro register' seen' waiting'
    rw [waiting] at waiting'
    cases waiting'
    exact word
  · intro fault halted
    rw [waiting] at halted
    cases halted

/-- The instruction at the program counter leaves a coherent machine: a key wait stays on
its own word, and after any other instruction the machine runs. -/
theorem coherent_execute (running : m.activity = .running) :
    Coherent (m.execute (decode (m.fetch m.pc))) := by
  have activity := activity_execute m (decode (m.fetch m.pc))
  cases i : decode (m.fetch m.pc)
  case awaitKey x => exact .of_waiting rfl i
  all_goals
    rw [i] at activity
    exact .of_running (activity.trans running)

/-- A step keeps the machine coherent. -/
theorem coherent_step (h : Coherent m) : Coherent m.step.machine := by
  have case := m.step_cases
  generalize m.step = o at case ⊢
  cases case with
  | refused running reason =>
    -- halting moves nothing, so the reason is still there
    have arises := (m.refusal?_eq_some_iff _).mp reason
    refine ⟨nofun, ?_⟩
    intro fault halted
    cases halted
    exact ⟨rfl, rfl, arises.congr rfl rfl⟩
  | executed running accepted traffic =>
    refine (coherent_execute running).congr ?_ ?_ ?_ ?_
    · exact activity_complete ..
    · exact pc_complete ..
    · exact memory_complete ..
    · exact calls_complete ..
  | resumed => exact .of_running rfl
  -- a look at the keys leaves the machine on the word it waits on
  | parked waiting => exact .of_waiting rfl (h.waiting waiting)
  | stuck => exact h

/-- Coherence is an invariant of all operations but writing to memory from outside, which
could take the word away from under the machine. -/
theorem invariant_coherent : Invariant (fun o => o.isPoke = false) Coherent where
  fresh _ _ _ _ := .of_running rfl
  step := coherent_step
  countDown h := h.congr rfl rfl rfl rfl
  frames _ h := h.congr rfl rfl rfl rfl
  keys _ h := h.congr rfl rfl rfl rfl
  dialect _ h := h.congr rfl rfl rfl rfl
  traceLimit _ h := h.congr rfl rfl rfl rfl
  poke _ _ allowed _ := absurd allowed Bool.noConfusion

/-- A fault accounts for a machine that has halted on it: it names the program counter and the word
there, and is of a kind that this word raises with this stack. -/
structure HaltedBy (m : Machine) (fault : Fault) : Prop where
  /-- The fault lies at the program counter. -/
  address : fault.address = m.pc
  /-- Its word is the one that lies there. -/
  word : fault.word = m.fetch m.pc
  /-- It comes from an instruction. -/
  kind : fault.kind ∈ [.unknownInstruction, .stackOverflow, .stackUnderflow]
  /-- The stack overflows only at a call, with all slots taken. -/
  overflow : fault.kind = .stackOverflow → fault.word.toNat / 0x1000 = 2 ∧ m.calls.depth = 16
  /-- It underflows only at a return, with none taken. -/
  underflow : fault.kind = .stackUnderflow → fault.word = 0x00EE ∧ m.calls.depth = 0
  /-- Only a word that is no instruction, or one for native code, is unknown. -/
  unknown : fault.kind = .unknownInstruction →
    (decode fault.word).form = .native ∨ (decode fault.word).form = .data

theorem Coherent.haltedBy {fault : Fault} (h : Coherent m) (halted : m.activity = .halted fault) :
    m.HaltedBy fault := by
  obtain ⟨address, word, arises⟩ := h.halted halted
  refine ⟨address, word, ?_, ?_, ?_, ?_⟩
  · cases kind : fault.kind <;> rw [kind] at arises <;> simp
    exact arises
  all_goals
    intro kind
    rw [kind] at arises
    rw [word]
    exact arises

/-- The run state has no part in that. -/
theorem HaltedBy.of_activity {a : Activity} {fault : Fault}
    (h : { m with activity := a }.HaltedBy fault) : m.HaltedBy fault :=
  ⟨h.address, h.word, h.kind, h.overflow, h.underflow, h.unknown⟩

end Machine

/-- In a machine that can be reached without writing to memory from outside, there is no
fault unless the machine has halted; a machine that waits is on the word that asks for its
key; and a machine that has halted keeps a fault that names its program counter and the word
there, of a kind that this word raises with this stack.  The same holds of the fields in which a
machine stores its run state: as long as it has not halted, the field of the fault is empty. -/
theorem reachable_coherent :
    (∀ m : Machine, m.Reachable (fun o => o.isPoke = false) →
      (m.activity.phase ≠ .halted → m.fault? = none) ∧
      (∀ register seen, m.activity = .awaitingKey register seen →
        (m.fetch m.pc).toNat = 0xF00A + register.val * 0x100) ∧
      (m.activity.phase = .halted → ∃ fault, m.fault? = some fault ∧ m.HaltedBy fault)) ∧
    ∀ s : ControlledMachine, s.Reachable (fun o => o.isPoke = false) →
      (s.control.phase ≠ .halted → s.control.fault = {}) ∧
      (s.control.phase = .awaitingKey →
        (s.rest.fetch s.rest.pc).toNat = 0xF00A + s.control.register.toNat * 0x100) ∧
      (s.control.phase = .halted →
        ∃ fault, s.control.fault = .ofFault fault ∧ s.rest.HaltedBy fault) := by
  refine ⟨?_, ?_⟩
  · intro m h
    have coherent := Machine.invariant_coherent.of_reachable h
    refine ⟨?_, ?_, ?_⟩
    · intro going
      cases activity : m.activity with
      | running | awaitingKey => simp [Machine.fault?, activity, Activity.fault?]
      | halted fault => simp [activity, Activity.phase] at going
    · intro register seen waiting
      exact toNat_of_decode_eq_awaitKey (coherent.waiting waiting)
    · intro stopped
      cases activity : m.activity with
      | running | awaitingKey => simp [activity, Activity.phase] at stopped
      | halted fault =>
        have stored : m.fault? = some fault := by
          rw [Machine.fault?, activity, Activity.fault?]
        exact ⟨fault, stored, coherent.haltedBy activity⟩
  · intro s h
    obtain ⟨m, reachable, shows⟩ := h.exists_shows
    have coherent := Machine.invariant_coherent.of_reachable reachable
    refine ⟨h.sound.fault, ?_, ?_⟩
    · intro waiting
      obtain ⟨register, number, activity⟩ := shows.of_awaitingKey_phase waiting
      have word := toNat_of_decode_eq_awaitKey (coherent.waiting activity)
      rw [number, ← word, shows.rest]
      rfl
    · intro stopped
      obtain ⟨fault, stored, activity⟩ := shows.of_halted_phase stopped
      have halted := coherent.haltedBy activity
      rw [shows.rest] at halted
      exact ⟨fault, stored, halted.of_activity⟩

/-- A program that waits for a key and then runs on into a word that is no instruction.  The fields
keep the number of the register and the keys of the last look when the machine has halted. -/
theorem reachable_coherent_wait_then_halt :
    let waits := (Machine.powerOn {} 0 default).after [.load [0xF3, 0x0A, 0x00, 0x00], .step]
    let halts := waits.after [.countDown, .key 5 true, .frame 9]
    (waits.activity = .awaitingKey 3 .released ∧ (waits.fetch waits.pc).toNat = 0xF30A) ∧
      (halts.activity.phase = .halted ∧ ∃ fault, halts.fault? = some fault ∧
        fault.address = halts.pc ∧ fault.word = halts.fetch halts.pc ∧
        fault.kind ∈ [.unknownInstruction, .stackOverflow, .stackUnderflow]) ∧
      ∃ s : ControlledMachine, s.Reachable (fun o => o.isPoke = false) ∧
        s.control.phase = .halted ∧ s.control.register = 3 ∧
        ∃ fault, s.control.fault = .ofFault fault ∧ s.rest.HaltedBy fault := by
  intro waits halts
  have before : Machine.Reachable (fun o => o.isPoke = false) waits :=
    (Machine.Reachable.powerOn {} 0 default).after _ (by decide)
  have facts : waits.activity = .awaitingKey 3 .released ∧ halts.activity.phase = .halted := by
    decide +kernel
  obtain ⟨waiting, halted⟩ := facts
  refine ⟨⟨waiting, (reachable_coherent.1 _ before).2.1 _ _ waiting⟩, ⟨halted, ?_⟩, ?_⟩
  · have after := (reachable_coherent.1 _ (before.after _ (by decide))).2.2 halted
    obtain ⟨fault, stored, cause⟩ := after
    exact ⟨fault, stored, cause.address, cause.word, cause.kind⟩
  · have fields :
        ((ControlledMachine.powerOn {} 0 default).after?
          [.load [0xF3, 0x0A, 0x00, 0x00], .step, .countDown, .key 5 true, .frame 9]).map
            (fun s => (s.control.phase, s.control.register)) = some (.halted, 3) := by
      decide +kernel
    obtain ⟨s, done, stored⟩ := Option.map_eq_some_iff.mp fields
    obtain ⟨phase, register⟩ := Prod.mk.inj stored
    have reachable : s.Reachable (fun o => o.isPoke = false) :=
      (ControlledMachine.Reachable.powerOn {} 0 default).after (by decide) done
    exact ⟨s, reachable, phase, register, (reachable_coherent.2 s reachable).2.2 phase⟩

end Chip8
