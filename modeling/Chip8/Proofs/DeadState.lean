import Chip8.Proofs.CallStack
import Chip8.Proofs.Control
import Chip8.Proofs.Frames
import Chip8.Proofs.Loading
import Mathlib.Data.List.Forall2

namespace Chip8

/-!
# Dead state

Some of what a machine holds has no part in what it does from now on: the index register above
the width of an address, stack slots that have been given up, random bytes that have been taken,
and everything that is counted and recorded.  Machines that differ in nothing else are similar,
and whatever is done to both of them, they answer alike and stay similar.

* `Machine.Similar` — what similar machines have in common.
* `Machine.Similar.execute`, `Machine.Similar.step` — every instruction and every step leaves
  similar machines.
* `Machine.Similar.runFrame`, `Machine.Similar.perform` — so does every frame and every operation.
* `Machine.Similar.outcomes` — the answers to a history, and the machine after it.
* `Control.Similar`, `ControlledMachine.Similar` — what is in use of a stored run state is the same;
  `ControlledMachine.Shows.similar_iff` says that such machines show similar ones.
* `dead_state_never_leaks` — all of that in one statement.
-/

/-- The byte of a random source that comes after a number of others. -/
def RandomSource.upcoming (r : RandomSource) (count : Nat) : UInt8 := r.stream (r.taken + count)

/-- Two machines have everything in common that can have a part in what they will do. -/
structure Machine.Similar (m m' : Machine) : Prop where
  /-- The registers are the same, -/
  registers : m.registers = m'.registers
  /-- so is the program counter, -/
  pc : m.pc = m'.pc
  /-- so are the return addresses that have not been given up, -/
  calls : m.calls.live = m'.calls.live
  /-- and so are the timers, -/
  delay : m.delay = m'.delay
  /-- both of them, -/
  sound : m.sound = m'.sound
  /-- memory, -/
  memory : m.memory = m'.memory
  /-- the display -/
  display : m.display = m'.display
  /-- and the keys. -/
  keys : m.keys = m'.keys
  /-- Disputed instructions are read in the same way. -/
  dialect : m.dialect = m'.dialect
  /-- The run state is the same, with the fault of a machine that has halted and with what a
  machine that waits for a key remembers. -/
  activity : m.activity = m'.activity
  /-- The index registers point at the same cell. -/
  index : m.index.toNat % 0x1000 = m'.index.toNat % 0x1000
  /-- The same random bytes are still to come. -/
  random : m.random.upcoming = m'.random.upcoming

/-- Two outcomes report and announce the same and leave similar machines. -/
structure Outcome.Similar (left left' : Outcome) : Prop where
  /-- The machines are similar. -/
  machine : left.machine.Similar left'.machine
  /-- The same fault is reported, if any is. -/
  fault? : left.fault? = left'.fault?
  /-- The same is announced. -/
  notices : left.notices = left'.notices

namespace Machine.Similar

variable {m m' : Machine}

protected theorem refl (m : Machine) : Similar m m :=
  ⟨rfl, rfl, rfl, rfl, rfl, rfl, rfl, rfl, rfl, rfl, rfl, rfl⟩

/-! ### What instructions read -/

/-- The word at the program counter is the same. -/
theorem word (h : Similar m m') : m.fetch m.pc = m'.fetch m'.pc := by
  rw [fetch, fetch, h.memory, h.pc]

/-- As many return addresses are on the stack. -/
theorem depth (h : Similar m m') : m.calls.depth = m'.calls.depth := by
  rw [← CallStack.length_live, h.calls, CallStack.length_live]

theorem reg (h : Similar m m') (x : Register) : m.reg x = m'.reg x := by
  rw [Machine.reg, Machine.reg, h.registers]

theorem namedKey (h : Similar m m') (x : Register) : m.namedKey x = m'.namedKey x := by
  rw [Machine.namedKey, Machine.namedKey, h.reg x]

theorem shiftOperand (h : Similar m m') (x y : Register) :
    m.shiftOperand x y = m'.shiftOperand x y := by
  rw [Machine.shiftOperand, Machine.shiftOperand, h.dialect, h.reg x, h.reg y]

theorem offsetTarget (h : Similar m m') (base : Address) :
    m.offsetTarget base = m'.offsetTarget base := by
  simp only [Machine.offsetTarget, h.dialect, h.reg]

theorem spriteRows (h : Similar m m') (rows : Fin 16) : m.spriteRows rows = m'.spriteRows rows := by
  rw [Machine.spriteRows, Machine.spriteRows, h.memory]
  exact Bank.readFrom_congr _ h.index _

theorem registersUpTo (h : Similar m m') (x : Register) :
    m.registersUpTo x = m'.registersUpTo x := by
  rw [Machine.registersUpTo, Machine.registersUpTo, h.registers]

theorem bytesUpTo (h : Similar m m') (x : Register) : m.bytesUpTo x = m'.bytesUpTo x := by
  rw [Machine.bytesUpTo, Machine.bytesUpTo, h.memory]
  exact Bank.readFrom_congr _ h.index _

/-- A sprite is drawn at the same place of the same display. -/
theorem drawing (h : Similar m m') (x y : Register) (rows : Fin 16) :
    m.display.draw ((m.reg x).toNat % Display.width) ((m.reg y).toNat % Display.height)
        (m.spriteRows rows) =
      m'.display.draw ((m'.reg x).toNat % Display.width) ((m'.reg y).toNat % Display.height)
        (m'.spriteRows rows) := by
  rw [h.display, h.reg x, h.reg y, h.spriteRows rows]

/-- Bytes that are written from where the index register points go to the same cells. -/
theorem writeFrom (h : Similar m m') {bytes bytes' : List UInt8} (same : bytes = bytes') :
    m.memory.writeFrom m.index.toNat bytes = m'.memory.writeFrom m'.index.toNat bytes' := by
  subst same
  have wrapped := Bank.writeFrom_congr m.memory h.index bytes
  rw [wrapped, h.memory]

/-- An instruction is refused by both machines or by neither. -/
theorem refusal? (h : Similar m m') (i : Instruction) : m.refusal? i = m'.refusal? i := by
  unfold Machine.refusal?
  rw [CallStack.isFull, CallStack.isEmpty, h.depth]
  rfl

/-! ### What instructions write -/

theorem next (h : Similar m m') : Similar m.next m'.next :=
  { h with pc := by rw [Machine.next, Machine.next, h.pc] }

theorem skipIf (h : Similar m m') {condition condition' : Bool} (same : condition = condition') :
    Similar (m.skipIf condition) (m'.skipIf condition') :=
  { h with pc := by rw [Machine.skipIf, Machine.skipIf, h.pc, same] }

theorem setReg (h : Similar m m') (x : Register) {value value' : UInt8} (same : value = value') :
    Similar (m.setReg x value) (m'.setReg x value') :=
  { h with registers := by rw [Machine.setReg, Machine.setReg, h.registers, same] }

theorem setRegAndFlag (h : Similar m m') (x : Register) {value value' flag flag' : UInt8}
    (same : value = value') (sameFlag : flag = flag') :
    Similar (m.setRegAndFlag x value flag) (m'.setRegAndFlag x value' flag') :=
  { h with
    registers := by
      rw [Machine.setRegAndFlag, Machine.setRegAndFlag, h.registers, same, sameFlag] }

/-- What is added to both index registers keeps them on the same cell, though either may go round
at the width of a word. -/
theorem index_add (h : Similar m m') (offset : UInt16) :
    (m.index + offset).toNat % 0x1000 = (m'.index + offset).toNat % 0x1000 := by
  have same := h.index
  rw [UInt16.toNat_add, UInt16.toNat_add]
  omega

theorem indexAfterTransfer (h : Similar m m') (x : Register) :
    (m.indexAfterTransfer x).toNat % 0x1000 = (m'.indexAfterTransfer x).toNat % 0x1000 := by
  rw [Machine.indexAfterTransfer, Machine.indexAfterTransfer, h.dialect]
  split
  · exact h.index_add _
  · exact h.index

theorem advance (h : Similar m m') : m.random.advance.upcoming = m'.random.advance.upcoming := by
  funext count
  have later := congrFun h.random (count + 1)
  simp only [RandomSource.upcoming, RandomSource.advance] at later ⊢
  rw [Nat.add_assoc, Nat.add_comm 1, later, Nat.add_assoc, Nat.add_comm 1]

/-! ### Instructions -/

/-- An instruction that is not refused leaves similar machines. -/
theorem execute (h : Similar m m') {i : Instruction} (accepted : m.refusal? i = none) :
    Similar (m.execute i) (m'.execute i) := by
  cases i
  case native | data => exact h
  case clear => exact { h.next with display := rfl }
  case jump => exact { h with pc := rfl }
  case ret =>
    -- a return is refused on an empty stack, so the address it takes has not been given up
    have taken := m.refusal?_ret_eq_none_iff.mp accepted
    have taken' : 0 < m'.calls.depth := h.depth ▸ taken
    have top : m.calls.top = m'.calls.top := by
      rw [m.calls.top_eq_getLast taken, h.calls, ← m'.calls.top_eq_getLast taken']
    have rest : m.calls.pop.live = m'.calls.pop.live := by
      rw [CallStack.live_pop, CallStack.live_pop, h.calls]
    exact { h with pc := top, calls := rest }
  case call target =>
    have room := (m.refusal?_call_eq_none_iff target).mp accepted
    have room' : m'.calls.depth < 16 := h.depth ▸ room
    have more : (m.calls.push m.next.pc).live = (m'.calls.push m'.next.pc).live := by
      rw [CallStack.live_push _ _ room, CallStack.live_push _ _ room', h.calls, h.next.pc]
    exact { h with pc := rfl, calls := more }
  case skipIfByte x _ | skipUnlessByte x _ => exact h.skipIf (by rw [h.reg x])
  case skipIfEqual x y | skipUnlessEqual x y => exact h.skipIf (by rw [h.reg x, h.reg y])
  case skipIfKey x | skipUnlessKey x => exact h.skipIf (by rw [h.keys, h.namedKey x])
  case setByte x _ => exact h.next.setReg x rfl
  case addByte x _ => exact h.next.setReg x (by rw [h.reg x])
  case copy x y => exact h.next.setReg x (h.reg y)
  case or x y | and x y | xor x y => exact h.next.setReg x (by rw [h.reg x, h.reg y])
  case add x y | sub x y | subFrom x y =>
    exact h.next.setRegAndFlag x (by rw [h.reg x, h.reg y]) (by rw [h.reg x, h.reg y])
  case shiftRight x y | shiftLeft x y =>
    exact h.next.setRegAndFlag x (by rw [h.shiftOperand x y]) (by rw [h.shiftOperand x y])
  case setIndex => exact { h.next with index := rfl }
  case jumpOffset base => exact { h with pc := congrArg Address.toWord (h.offsetTarget base) }
  case random x mask =>
    have drawn : m.random.next = m'.random.next := congrFun h.random 0
    exact { h.next.setReg x (congrArg (· &&& mask) drawn) with random := h.advance }
  case draw x y rows =>
    have shown := congrArg Display.Drawing.display (h.drawing x y rows)
    have met := congrArg Display.Drawing.collided (h.drawing x y rows)
    exact { h.next.setReg .flag (congrArg flagByte met) with display := shown }
  case readDelay x => exact h.next.setReg x h.delay
  case awaitKey x => exact { h with activity := congrArg (Activity.awaitingKey x) h.keys }
  case setDelay x => exact { h.next with delay := h.reg x }
  case setSound x => exact { h.next with sound := h.reg x }
  case addIndex x =>
    have moved := h.index_add (m.reg x).toUInt16
    exact { h.next with index := moved.trans (by rw [h.reg x]; rfl) }
  case glyph x =>
    have named : (m.execute (.glyph x)).index = (m'.execute (.glyph x)).index := by
      rw [Machine.execute, Machine.execute, h.namedKey x]
    exact { h.next with index := congrArg (·.toNat % 0x1000) named }
  case decimal x =>
    have digits := congrArg decimalDigits (h.reg x)
    exact { h.next with memory := h.writeFrom digits }
  case store x =>
    exact
      { h.next with
        memory := h.writeFrom (h.registersUpTo x)
        index := h.indexAfterTransfer x }
  case load x =>
    have loaded : m.registers.writeFrom 0 (m.bytesUpTo x) =
        m'.registers.writeFrom 0 (m'.bytesUpTo x) := by
      rw [h.registers, h.bytesUpTo x]
    exact { h.next with registers := loaded, index := h.indexAfterTransfer x }

/-- Recording an instruction leaves similar machines, whatever is recorded. -/
theorem complete (h : Similar m m') (pc pc' word word' : UInt16) (form form' : Form)
    (traffic traffic' : List Transfer) :
    Similar (m.complete pc word form traffic) (m'.complete pc' word' form' traffic') := by
  obtain ⟨timeline, recorded⟩ := m.exists_timeline_complete pc word form traffic
  obtain ⟨timeline', recorded'⟩ := m'.exists_timeline_complete pc' word' form' traffic'
  rw [recorded, recorded']
  exact { h with }

/-! ### Steps -/

theorem isWaiting (h : Similar m m') : m.isWaiting = m'.isWaiting := by
  rw [Machine.isWaiting, Machine.isWaiting, h.activity]

theorem isHalted (h : Similar m m') : m.isHalted = m'.isHalted := by
  rw [Machine.isHalted, Machine.isHalted, h.activity]

/-- An instruction is carried out or refused by both machines. -/
theorem dispatch (h : Similar m m') : m.dispatch.Similar m'.dispatch := by
  have refused : m'.refusal? (decode (m'.fetch m'.pc)) = m.refusal? (decode (m.fetch m.pc)) := by
    rw [← h.word, h.refusal?]
  cases reason : m.refusal? (decode (m.fetch m.pc)) with
  | some kind =>
    rw [dispatch_of_refused reason, dispatch_of_refused (refused.trans reason), h.word, h.pc]
    exact ⟨{ h with activity := rfl }, rfl, rfl⟩
  | none =>
    have executed := h.execute reason
    rw [dispatch_of_accepted reason, dispatch_of_accepted (refused.trans reason), ← h.word]
    exact ⟨executed.complete .., rfl, rfl⟩

/-- A look at the keys finds the same one. -/
theorem poll (h : Similar m m') (register : Register) (seen : Keypad) :
    Similar (m.poll register seen) (m'.poll register seen) := by
  cases pressed : m.keys.firstPressed? seen with
  | none =>
    have pressed' : m'.keys.firstPressed? seen = none := h.keys ▸ pressed
    simp only [Machine.poll, pressed, pressed']
    exact { h with activity := congrArg (Activity.awaitingKey register) h.keys }
  | some key =>
    have pressed' : m'.keys.firstPressed? seen = some key := h.keys ▸ pressed
    simp only [Machine.poll, pressed, pressed']
    exact { h.next.setReg register rfl with activity := rfl }

theorem step (h : Similar m m') : m.step.Similar m'.step := by
  cases activity : m.activity with
  | running =>
    have activity' : m'.activity = .running := h.activity ▸ activity
    rw [step_of_running activity, step_of_running activity']
    exact h.dispatch
  | awaitingKey register seen =>
    have activity' : m'.activity = .awaitingKey register seen := h.activity ▸ activity
    rw [step_of_awaitingKey activity, step_of_awaitingKey activity']
    exact ⟨h.poll register seen, rfl, rfl⟩
  | halted fault =>
    have activity' : m'.activity = .halted fault := h.activity ▸ activity
    rw [step_of_halted activity, step_of_halted activity']
    exact ⟨h, rfl, rfl⟩

/-- Steps of similar machines stop at the same one. -/
theorem steps (h : Similar m m') (count : Nat) :
    (Machine.steps count m).Similar (Machine.steps count m') := by
  induction count generalizing m m' with
  | zero => exact ⟨h, rfl, rfl⟩
  | succ count ih =>
    have first := h.step
    rw [Machine.steps, Machine.steps, ← first.fault?, ← first.machine.isWaiting]
    split
    · exact first
    · exact ih first.machine

/-! ### Frames and operations -/

theorem countDown (h : Similar m m') : Similar m.countDown m'.countDown :=
  { h with
    delay := by rw [Machine.countDown, Machine.countDown, h.delay]
    sound := by rw [Machine.countDown, Machine.countDown, h.sound] }

theorem runFrame (h : Similar m m') (count : Nat) :
    (m.runFrame count).Similar (m'.runFrame count) := by
  cases halted : m.isHalted with
  | true =>
    obtain ⟨fault, activity⟩ := m.isHalted_iff.mp halted
    have activity' : m'.activity = .halted fault := h.activity ▸ activity
    rw [runFrame_of_halted activity, runFrame_of_halted activity']
    exact ⟨h, rfl, rfl⟩
  | false =>
    have taken := h.steps count
    have ended := taken.machine.countDown
    rw [runFrame_of_not_halted halted, runFrame_of_not_halted (h.isHalted ▸ halted),
      ← taken.fault?]
    split
    · exact taken
    · exact ⟨{ ended with }, taken.fault?, taken.notices⟩

/-- A restart leaves similar machines, with whatever it puts into the memory of both. -/
theorem restart (h : Similar m m') (memory : Memory) :
    Similar { m.reset with memory := memory } { m'.reset with memory := memory } where
  registers := rfl
  pc := rfl
  calls := rfl
  delay := rfl
  sound := rfl
  memory := rfl
  display := rfl
  keys := rfl
  dialect := h.dialect
  activity := rfl
  index := rfl
  random := h.random

theorem load (h : Similar m m') (program : List UInt8) :
    (m.load program).Similar (m'.load program) := by
  by_cases fits : program.length ≤ programCapacity
  · rw [load_of_fits m fits, load_of_fits m' fits]
    exact ⟨h.restart _, rfl, rfl⟩
  · have large := Nat.lt_of_not_le fits
    rw [load_of_oversized m large, load_of_oversized m' large]
    exact ⟨h, rfl, rfl⟩

/-- Every operation leaves similar machines, and gives the same answer. -/
theorem perform (h : Similar m m') (o : Operation) : (o.perform m).Similar (o.perform m') := by
  cases o with
  | reset => exact ⟨h.restart Memory.initial, rfl, rfl⟩
  | load program => exact h.load program
  | key number down => exact ⟨{ h with keys := congrArg (·.set number down) h.keys }, rfl, rfl⟩
  | step => exact h.step
  | frame count => exact h.runFrame count
  | countDown => exact ⟨h.countDown, rfl, rfl⟩
  | setDialect dialect => exact ⟨{ h with dialect := rfl }, rfl, rfl⟩
  | setTraceLimit limit => exact ⟨{ h with }, rfl, rfl⟩
  | poke address value =>
    exact ⟨{ h with memory := congrArg (·.write address value) h.memory }, rfl, rfl⟩

end Machine.Similar

/-- Every operation of a common history gives the same answer, and the machines end similar. -/
theorem Machine.Similar.outcomes {m m' : Machine} (h : m.Similar m') (history : List Operation) :
    List.Forall₂ Outcome.Similar (m.outcomes history) (m'.outcomes history) ∧
      (m.after history).Similar (m'.after history) := by
  induction history generalizing m m' with
  | nil => exact ⟨.nil, h⟩
  | cons o history ih =>
    have here := h.perform o
    obtain ⟨later, ends⟩ := ih here.machine
    exact ⟨.cons here later, ends⟩

/-! ### The run state as it is stored -/

/-- What is stored of the run state is the same where it is in use. -/
structure Control.Similar (c c' : Control) : Prop where
  /-- The run state is the same. -/
  phase : c.phase = c'.phase
  /-- So is the fault, in a machine that has halted. -/
  fault : c.phase = .halted → c.fault = c'.fault
  /-- So is the register that is to receive a key, in a machine that waits for one, -/
  register : c.phase = .awaitingKey → c.register = c'.register
  /-- and so are the keys of the last look. -/
  seen : c.phase = .awaitingKey → c.seen = c'.seen

/-- Fields that show the same activity are similar. -/
theorem Control.Similar.of_shows {c c' : Control} {a : Activity} (h : c.Shows a)
    (h' : c'.Shows a) : c.Similar c' := by
  have phase : c.phase = c'.phase := h.phase.trans h'.phase.symm
  cases h with
  | running here =>
    exact ⟨phase, by simp [here], by simp [here], by simp [here]⟩
  | awaitingKey here number =>
    generalize kept : c.seen = seen at h'
    cases h' with
    | awaitingKey _ number' =>
      have same : c.register = c'.register := UInt8.toNat_inj.mp (number.trans number'.symm)
      exact ⟨phase, by simp [here], fun _ => same, fun _ => kept⟩
  | halted here stored =>
    cases h' with
    | halted _ stored' =>
      exact ⟨phase, fun _ => stored.trans stored'.symm, by simp [here], by simp [here]⟩

/-- Similar fields show the same activity. -/
theorem Control.Similar.activity_eq {c c' : Control} {a a' : Activity} (h : c.Similar c')
    (shows : c.Shows a) (shows' : c'.Shows a') : a = a' := by
  -- the phase rules out that they show activities of two kinds
  have phase : a.phase = a'.phase := by rw [← shows.phase, h.phase, shows'.phase]
  cases shows with
  | running =>
    cases shows' with
    | running => rfl
    | awaitingKey | halted => cases phase
  | awaitingKey here number =>
    cases shows' with
    | awaitingKey _ number' =>
      rw [h.register here] at number
      rw [Fin.ext (number.symm.trans number'), h.seen here]
    | running | halted => cases phase
  | halted here stored =>
    cases shows' with
    | halted _ stored' =>
      rw [h.fault here] at stored
      rw [FaultRecord.ofFault_inj.mp (stored.symm.trans stored')]
    | running | awaitingKey => cases phase

/-- Two machines that store their run state are the same in everything that is in use. -/
structure ControlledMachine.Similar (s s' : ControlledMachine) : Prop where
  /-- The rest is similar, whatever it says about a run state. -/
  rest : ∀ a, Machine.Similar { s.rest with activity := a } { s'.rest with activity := a }
  /-- The fields of the run state are similar. -/
  control : s.control.Similar s'.control

/-- Two such outcomes report and announce the same and leave similar machines. -/
structure ControlledOutcome.Similar (left left' : ControlledOutcome) : Prop where
  /-- The machines are similar. -/
  machine : left.machine.Similar left'.machine
  /-- The same fault is reported, if any is. -/
  fault : left.fault = left'.fault
  /-- The same is announced. -/
  notices : left.notices = left'.notices

namespace ControlledMachine.Shows

variable {s s' : ControlledMachine} {m m' : Machine}

/-- Machines are similar if and only if the machines that they show are. -/
theorem similar_iff (shows : s.Shows m) (shows' : s'.Shows m') :
    s.Similar s' ↔ m.Similar m' := by
  obtain ⟨a, control, rfl⟩ := shows.exists_activity
  obtain ⟨a', control', rfl⟩ := shows'.exists_activity
  constructor
  · intro h
    rw [h.control.activity_eq control control']
    exact h.rest a'
  · intro h
    have same : a = a' := h.activity
    exact ⟨fun _ => { h with activity := rfl }, .of_shows control (same ▸ control')⟩

/-- So whatever is done to both, they answer alike and stay similar. -/
theorem similar_outcomes (shows : s.Shows m) (shows' : s'.Shows m') (h : m.Similar m')
    (history : List Operation) :
    ∃ lefts lefts', s.outcomes? history = some lefts ∧ s'.outcomes? history = some lefts' ∧
      List.Forall₂ ControlledOutcome.Similar lefts lefts' := by
  induction history generalizing s s' m m' with
  | nil => exact ⟨[], [], rfl, rfl, .nil⟩
  | cons o history ih =>
    obtain ⟨left, done, here⟩ := shows.perform o
    obtain ⟨left', done', here'⟩ := shows'.perform o
    have answers := h.perform o
    have alike : left.Similar left' :=
      { machine := (here.machine.similar_iff here'.machine).mpr answers.machine
        fault := by rw [here.fault, answers.fault?, here'.fault]
        notices := by rw [here.notices, answers.notices, here'.notices] }
    obtain ⟨lefts, lefts', later, later', all⟩ := ih here.machine here'.machine answers.machine
    exact ⟨left :: lefts, left' :: lefts', outcomes?_cons done later, outcomes?_cons done' later',
      .cons alike all⟩

end ControlledMachine.Shows

/-- Dead state never leaks.  Two machines may differ in the index register above the width of an
address, in stack slots that have been given up, in random bytes that have been taken, and in
everything that is counted and recorded.  If they are the same otherwise, then every operation of
a common history reports the same fault and announces the same for both of them, and leaves
machines that again differ in nothing else.  The same holds of machines that store their run state,
which may also differ in the fields of a wait if they do not wait, and in that of a fault if they
have not halted. -/
theorem dead_state_never_leaks (history : List Operation) :
    (∀ m m' : Machine, m.Similar m' →
      List.Forall₂ Outcome.Similar (m.outcomes history) (m'.outcomes history) ∧
        (m.after history).Similar (m'.after history)) ∧
    ∀ s s' : ControlledMachine, s.Reachable (fun _ => True) → s'.Reachable (fun _ => True) →
      s.Similar s' →
      ∃ lefts lefts', s.outcomes? history = some lefts ∧ s'.outcomes? history = some lefts' ∧
        List.Forall₂ ControlledOutcome.Similar lefts lefts' := by
  refine ⟨fun m m' h => h.outcomes history, ?_⟩
  intro s s' reachable reachable' h
  obtain ⟨m, -, shows⟩ := reachable.exists_shows
  obtain ⟨m', -, shows'⟩ := reachable'.exists_shows
  exact shows.similar_outcomes shows' ((shows.similar_iff shows').mp h) history

/-- Two machines have waited for a key and got the same one, and one of them has looked at the keys
once more before: they are similar, but still remember other keys. -/
theorem exists_similar_seen_ne :
    ∃ s s' : ControlledMachine, s.Reachable (fun _ => True) ∧ s'.Reachable (fun _ => True) ∧
      s.control.seen ≠ s'.control.seen ∧ s.Similar s' := by
  -- a wait that began with key 7 down, which has been let go
  have fields :
      ((ControlledMachine.powerOn {} 0 default).after?
        [.load [0xF1, 0x0A], .key 7 true, .step, .key 7 false]).map
          (fun w => (w.control.phase, w.control.register.toNat, w.rest.keys, w.control.seen)) =
        some (.awaitingKey, 1, .released, Keypad.released.set 7 true) := by
    decide +kernel
  obtain ⟨w, done, stored⟩ := Option.map_eq_some_iff.mp fields
  simp only [Prod.mk.injEq] at stored
  obtain ⟨waiting, number, keys, seen⟩ := stored
  have reachable : w.Reachable (fun _ => True) :=
    (ControlledMachine.Reachable.powerOn {} 0 default).after (fun _ _ => trivial) done
  have looks : ControlledMachine.Reachable (fun _ => True)
      { w with control := w.control.look w.rest.keys } := by
    have unpressed : w.rest.keys.firstPressed? w.control.seen = none := by
      rw [keys, seen]
      decide
    exact reachable.perform (o := .step) trivial
      (ControlledMachine.step?_of_awaitingKey waiting (ControlledMachine.poll?_of_none unpressed))
  -- key 5 ends the wait, with whatever keys the machine remembers
  have resumes (c : Control) (waits : c.phase = .awaitingKey) (asks : c.register.toNat = 1)
      (pressed : (w.rest.keys.set 5 true).firstPressed? c.seen = some 5)
      (before : ControlledMachine.Reachable (fun _ => True) { w with control := c }) :
      ControlledMachine.Reachable (fun _ => True)
        { rest := { w.rest with keys := w.rest.keys.set 5 true }.next.setReg 1 5
          control := c.resume } :=
    (before.perform (o := .key 5 true) trivial rfl).perform (o := .step) trivial
      (ControlledMachine.step?_of_awaitingKey waits
        (ControlledMachine.poll?_of_pressed pressed asks))
  have pressed : (w.rest.keys.set 5 true).firstPressed? w.control.seen = some 5 := by
    rw [keys, seen]
    decide
  have pressed' : (w.rest.keys.set 5 true).firstPressed? w.rest.keys = some 5 := by
    rw [keys]
    decide
  refine ⟨_, _, resumes w.control waiting number pressed reachable,
    resumes (w.control.look w.rest.keys) waiting number pressed' looks, ?_, fun _ => .refl _, ?_⟩
  · show w.control.seen ≠ w.rest.keys
    rw [keys, seen]
    decide
  · exact ⟨rfl, nofun, nofun, nofun⟩

/-- A machine and one that has come back from a subroutine, has let its index register run over,
and has counted more and records nothing: both write digits to the same cells, and both fault on
a return, for which the second one has a stale address at hand.  And two machines that have got the
same key, of which one has looked at the keys once more before, still remember other keys. -/
theorem dead_state_never_leaks_stale_address :
    let m := (Machine.powerOn {} 8 default).after [.load [0xF1, 0x33, 0x00, 0xEE], .key 3 true]
    let m' : Machine :=
      { m with
        index := 0xF000
        calls := (m.calls.push 0x300).pop
        cycles := 77
        frames := 9
        traceLimit := 0 }
    let history : List Operation := [.frame 1, .step, .frame 4]
    ((m.index = 0 ∧ m'.index = 0xF000 ∧ m.calls.slot 0 = 0 ∧ m'.calls.slot 0 = 0x300) ∧
      (m.after history).fault? = some ⟨.stackUnderflow, 0x00EE, 0x202⟩ ∧
      (m'.after history).fault? = some ⟨.stackUnderflow, 0x00EE, 0x202⟩ ∧
      List.Forall₂ Outcome.Similar (m.outcomes history) (m'.outcomes history)) ∧
    ∃ s s' : ControlledMachine, s.Reachable (fun _ => True) ∧ s'.Reachable (fun _ => True) ∧
      s.control.seen ≠ s'.control.seen ∧
      ∃ lefts lefts', s.outcomes? history = some lefts ∧ s'.outcomes? history = some lefts' ∧
        List.Forall₂ ControlledOutcome.Similar lefts lefts' := by
  intro m m' history
  refine ⟨?_, ?_⟩
  · have facts : (m.index = 0 ∧ m'.index = 0xF000 ∧ m.calls.slot 0 = 0 ∧ m'.calls.slot 0 = 0x300) ∧
        (m.after history).fault? = some ⟨.stackUnderflow, 0x00EE, 0x202⟩ ∧
        m.calls.live = m'.calls.live ∧ m.index.toNat % 0x1000 = m'.index.toNat % 0x1000 := by
      decide +kernel
    obtain ⟨differ, faults, calls, index⟩ := facts
    have similar : m.Similar m' :=
      { registers := rfl, pc := rfl, calls, delay := rfl, sound := rfl, memory := rfl
        display := rfl, keys := rfl, dialect := rfl, activity := rfl, index, random := rfl }
    obtain ⟨answers, ends⟩ := (dead_state_never_leaks history).1 m m' similar
    have faults' : (m'.after history).fault? = (m.after history).fault? :=
      congrArg Activity.fault? ends.activity.symm
    exact ⟨differ, faults, faults'.trans faults, answers⟩
  · obtain ⟨s, s', reachable, reachable', differ, similar⟩ := exists_similar_seen_ne
    exact ⟨s, s', reachable, reachable', differ,
      (dead_state_never_leaks history).2 s s' reachable reachable' similar⟩

end Chip8
