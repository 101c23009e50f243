import Chip8.Proofs.Timers
import Mathlib.Data.List.Chain

namespace Chip8

/-!
# Waiting for a key

A machine that waits for a key looks at the keys from time to time: once in every step, and
once in every frame that has steps.  The wait ends at the first look that finds a key down
that was up at the look before.  Until then nothing of the machine changes but what the
looks remember, the keys themselves, and what goes on from frame to frame.

* `Keypad.looks` — the keypads that a history lets a waiting machine look at.
* `Keypad.Quiet`, `Keypad.quiet_or_press` — whether no key is newly down from one look to the
  next; in a history, either none ever is or some look is the first that finds one.
* `Machine.waited`, `Machine.resumed` — a machine after it has waited for some time, and after
  a key has ended the wait.
* `Machine.step_of_quiet`, `Machine.step_of_press` — the two ways in which a look can end.
* `Machine.after_of_quiet` — a history without a newly pressed key leaves the machine waiting.
* `key_wait_protocol` — all of that in one statement, from the instruction on.
-/

/-! ### Looks at the keys -/

namespace Operation

/-- Whether an operation is one of those that go on while a program is played. -/
def isPlay : Operation → Bool
  | key _ _ | step | frame _ | countDown => true
  | _ => false

/-- Whether a waiting machine looks at the keys in an operation. -/
def isLook : Operation → Bool
  | step => true
  | frame steps => steps != 0
  | _ => false

/-- The keys after an operation. -/
def keysAfter (o : Operation) (k : Keypad) : Keypad :=
  match o with
  | key number down => k.set number down
  | _ => k

end Operation

namespace Keypad

/-- The keys after a history. -/
def after (k : Keypad) (history : List Operation) : Keypad :=
  history.foldl (fun k o => o.keysAfter k) k

/-- The keypads at the looks of a history, in order. -/
def looks (k : Keypad) : List Operation → List Keypad
  | [] => []
  | o :: history =>
    let later := (o.keysAfter k).looks history
    if o.isLook then k :: later else later

/-- The last look of a history that begins with an operation. -/
theorem getLastD_looks_cons (k seen : Keypad) (o : Operation) (history : List Operation) :
    (k.looks (o :: history)).getLastD seen =
      ((o.keysAfter k).looks history).getLastD (if o.isLook then k else seen) := by
  cases look : o.isLook with
  | false => simp only [looks, look, Bool.false_eq_true, if_false]
  | true => simp only [looks, look, if_true, List.getLastD_cons]

/-- Whether a key is down that was up before. -/
def NewlyDown (before now : Keypad) (key : Key) : Prop :=
  now.isDown key = true ∧ before.isDown key = false

instance (before now : Keypad) : DecidablePred (NewlyDown before now) :=
  fun _ => inferInstanceAs (Decidable (_ ∧ _))

/-- Whether no key is down that was up before. -/
def Quiet (before now : Keypad) : Prop := ∀ key, ¬ NewlyDown before now key

instance : DecidableRel Quiet :=
  fun before now => inferInstanceAs (Decidable (∀ key, ¬ NewlyDown before now key))

/-- A history is quiet if its first operation is, and what comes after it is. -/
theorem isChain_looks_cons (k seen : Keypad) (o : Operation) (history : List Operation) :
    (seen :: k.looks (o :: history)).IsChain Quiet ↔
      (o.isLook = true → Quiet seen k) ∧
        ((if o.isLook then k else seen) :: (o.keysAfter k).looks history).IsChain Quiet := by
  cases look : o.isLook with
  | false => simp [looks, look]
  | true => simp [looks, look]

/-- In a history either no look finds a key newly down, or some look is the first that does. -/
theorem quiet_or_press (seen k : Keypad) (history : List Operation) :
    (seen :: k.looks history).IsChain Quiet ∨
      ∃ before o later, history = before ++ o :: later ∧ o.isLook = true ∧
        (seen :: k.looks before).IsChain Quiet ∧
        ¬ Quiet ((k.looks before).getLastD seen) (k.after before) := by
  induction history generalizing seen k with
  | nil => exact Or.inl (List.isChain_singleton seen)
  | cons o history ih =>
    by_cases here : o.isLook = true → Quiet seen k
    · rcases ih (if o.isLook then k else seen) (o.keysAfter k) with onward | press
      · exact Or.inl ((isChain_looks_cons k seen o history).mpr ⟨here, onward⟩)
      · obtain ⟨before, p, later, rfl, look, onward, press⟩ := press
        refine Or.inr ⟨o :: before, p, later, rfl, look, ?_, ?_⟩
        · exact (isChain_looks_cons k seen o before).mpr ⟨here, onward⟩
        · rw [getLastD_looks_cons]
          exact press
    · rw [Classical.not_imp] at here
      exact Or.inr ⟨[], o, history, rfl, here.1, List.isChain_singleton seen, here.2⟩

variable {before now : Keypad}

/-- Where no key is newly down, none is found. -/
theorem firstPressed?_of_quiet (quiet : Quiet before now) : now.firstPressed? before = none := by
  rw [firstPressed?, List.find?_eq_none]
  intro key _ pressed
  rw [Bool.and_eq_true, Bool.not_eq_true'] at pressed
  exact quiet key pressed

/-- Where some are newly down, the lowest of them is found. -/
theorem exists_lowest_of_not_quiet (press : ¬ Quiet before now) :
    ∃ key, now.firstPressed? before = some key ∧ NewlyDown before now key ∧
      ∀ other < key, ¬ NewlyDown before now other := by
  cases found : now.firstPressed? before with
  | none =>
    rw [firstPressed?, List.find?_eq_none] at found
    refine absurd (fun key newly => found key (List.mem_finRange key) ?_) press
    rw [Bool.and_eq_true, Bool.not_eq_true']
    exact newly
  | some key =>
    obtain ⟨pressed, i, inside, there, lower⟩ := List.find?_eq_some_iff_getElem.mp found
    rw [Bool.and_eq_true, Bool.not_eq_true'] at pressed
    refine ⟨key, rfl, pressed, ?_⟩
    rintro other below ⟨down, up⟩
    rw [List.getElem_finRange] at there
    subst there
    -- the search goes upwards, so a lower key has been passed over
    have missed := lower other.val below
    rw [List.getElem_finRange] at missed
    simp [down, up] at missed

end Keypad

namespace Machine

variable {m : Machine} {register : Register} {seen : Keypad}

/-! ### Looks of a waiting machine -/

/-- A machine after a history in which it did nothing but wait for a key, which it last
looked for when the keys were as `seen` says. -/
def waited (m : Machine) (register : Register) (seen : Keypad) (history : List Operation) :
    Machine :=
  { m with
    keys := m.keys.after history
    activity := .awaitingKey register ((m.keys.looks history).getLastD seen)
    delay := lowered m.delay (history.countP Operation.isTick)
    sound := lowered m.sound (history.countP Operation.isTick)
    frames := m.frames + history.countP Operation.isFrame }

/-- A machine whose wait a key has ended: it has the key in a register, and runs from the next
instruction on. -/
def resumed (m : Machine) (register : Register) (key : Key) : Machine :=
  { m with
    registers := m.registers.write register (UInt8.ofNat key.val)
    pc := UInt16.ofNat ((m.pc.toNat + 2) % 0x1000)
    activity := .running }

/-- A look that finds no key newly down only remembers the keys. -/
theorem step_of_quiet (waiting : m.activity = .awaitingKey register seen)
    (quiet : Keypad.Quiet seen m.keys) :
    m.step = { machine := { m with activity := .awaitingKey register m.keys } } := by
  rw [step_of_awaitingKey waiting, poll, Keypad.firstPressed?_of_quiet quiet]

/-- A look that finds keys newly down ends the wait with the lowest of them. -/
theorem step_of_press (waiting : m.activity = .awaitingKey register seen)
    (press : ¬ Keypad.Quiet seen m.keys) :
    ∃ key, Keypad.NewlyDown seen m.keys key ∧
      (∀ other < key, ¬ Keypad.NewlyDown seen m.keys other) ∧
      m.step = { machine := m.resumed register key } := by
  obtain ⟨key, found, newly, lowest⟩ := Keypad.exists_lowest_of_not_quiet press
  refine ⟨key, newly, lowest, ?_⟩
  rw [step_of_awaitingKey waiting, poll, found]
  rfl

/-- The part of one operation in a wait. -/
theorem waited_singleton (m : Machine) (register : Register) (seen : Keypad) (o : Operation) :
    m.waited register seen [o] =
      { m with
        keys := o.keysAfter m.keys
        activity := .awaitingKey register (if o.isLook then m.keys else seen)
        delay := lowered m.delay (if o.isTick then 1 else 0)
        sound := lowered m.sound (if o.isTick then 1 else 0)
        frames := m.frames + if o.isFrame then 1 else 0 } := by
  unfold waited
  cases look : o.isLook <;>
    simp [Keypad.after, Keypad.looks, look]

/-- A frame of a machine that waits, from its one look on. -/
theorem runFrame_zero_of_waiting (waiting : m.activity = .awaitingKey register seen) :
    m.runFrame 0 = { machine := m.waited register seen [.frame 0] } := by
  rw [runFrame_zero (isHalted_of_waiting waiting), waited_singleton]
  simp [countDown, lowered_one, waiting, Operation.isLook, Operation.isTick, Operation.isFrame,
    Operation.keysAfter]

/-- What an operation does to a machine that waits, where it finds no key newly down. -/
theorem perform_of_quiet (waiting : m.activity = .awaitingKey register seen) {o : Operation}
    (play : o.isPlay = true) (quiet : o.isLook = true → Keypad.Quiet seen m.keys) :
    (o.perform m).machine = m.waited register seen [o] := by
  rw [waited_singleton]
  cases o with
  | key number down =>
    simp [Operation.perform, withKey, Operation.keysAfter, Operation.isLook, Operation.isTick,
      Operation.isFrame, waiting]
  | step =>
    show m.step.machine = _
    rw [step_of_quiet waiting (quiet rfl)]
    simp [Operation.isLook, Operation.isTick, Operation.isFrame, Operation.keysAfter]
  | frame count =>
    show (m.runFrame count).machine = _
    cases count with
    | zero =>
      rw [runFrame_zero_of_waiting waiting, waited_singleton]
    | succ count =>
      have look := step_of_quiet waiting (quiet rfl)
      rw [runFrame_succ_of_waiting (isHalted_of_waiting waiting) look rfl,
        runFrame_zero_of_waiting rfl, waited_singleton]
      rfl
  | countDown =>
    simp [Operation.perform, countDown, lowered_one, Operation.keysAfter, Operation.isLook,
      Operation.isTick, Operation.isFrame, waiting]
  | reset | load | setDialect | setTraceLimit | poke => cases play

/-- A wait goes on where it was left. -/
theorem waited_cons (m : Machine) (register : Register) (seen : Keypad) (o : Operation)
    (history : List Operation) :
    m.waited register seen (o :: history) =
      (m.waited register seen [o]).waited register (if o.isLook then m.keys else seen) history := by
  have first (p : Operation → Bool) :
      (o :: history).countP p = (if p o then 1 else 0) + history.countP p := by
    rw [List.countP_cons, Nat.add_comm]
  rw [waited_singleton]
  simp only [waited, Keypad.getLastD_looks_cons, first, lowered_lowered, Nat.add_assoc]
  rfl

/-- A history in which no look finds a key newly down leaves the machine waiting, with the keys
as they are now and as they were at the last look, and nothing else changed but for the frames
and the timers. -/
theorem after_of_quiet {history : List Operation}
    (waiting : m.activity = .awaitingKey register seen) (play : ∀ o ∈ history, o.isPlay = true)
    (quiet : (seen :: m.keys.looks history).IsChain Keypad.Quiet) :
    m.after history = m.waited register seen history := by
  induction history generalizing m seen with
  | nil => simp [waited, Keypad.after, Keypad.looks, ← waiting]
  | cons o history ih =>
    rw [Keypad.isChain_looks_cons] at quiet
    obtain ⟨here, onward⟩ := quiet
    have first := perform_of_quiet waiting (play o (by simp)) here
    rw [after_cons, first, m.waited_cons register seen o history]
    -- the first operation leaves a machine that waits, and the rest is compared with its last look
    have waits : (m.waited register seen [o]).activity =
        .awaitingKey register (if o.isLook then m.keys else seen) := by
      rw [waited_singleton]
    refine ih waits ?_ onward
    intro p later
    exact play p (List.mem_cons_of_mem o later)

/-! ### The instruction that waits -/

/-- An instruction that waits for a key leaves everything as it is but the run state and the
record of what was executed. -/
theorem step_of_awaitKey (running : m.activity = .running)
    (word : (m.fetch m.pc).toNat = 0xF00A + register.val * 0x100) :
    m.step =
      { machine :=
          { m with
            activity := .awaitingKey register m.keys
            cycles := m.cycles + 1
            timeline := m.step.machine.timeline } } := by
  have decoded := decode_of_toNat_eq_awaitKey word
  have accepted : m.refusal? (decode (m.fetch m.pc)) = none := by
    rw [decoded]
    rfl
  rw [step_of_running running, dispatch_of_accepted accepted, decoded]
  unfold complete
  split <;> rfl

end Machine

/-- The key wait.  An instruction that asks for a key leaves the machine waiting where it is, and
ends the stepping of a frame that it lies in.  As long as no look finds a key down that was up at
the look before, the machine goes on waiting: only the keys, the timers and the frames move on,
and every look remembers the keys that it found.  At the first look that finds such a key, the
lowest one goes into the register and the machine runs from the next instruction on; nothing
else changes, and a frame goes on with the steps that are left.  A key that every look so far has
found down is none of these keys. -/
theorem key_wait_protocol {m : Machine} {x : Register} (running : m.activity = .running)
    (word : (m.fetch m.pc).toNat = 0xF00A + x.val * 0x100) :
    let parked : Machine :=
      { m with
        activity := .awaitingKey x m.keys
        cycles := m.cycles + 1
        timeline := m.step.machine.timeline }
    m.step = { machine := parked } ∧
    (∀ (start : Machine) (k count : Nat), k < count →
      (∀ j ≤ k, (start.after (List.replicate j .step)).activity = .running) →
      start.after (List.replicate k .step) = m → start.runFrame count = parked.runFrame 0) ∧
    (∀ history : List Operation, (∀ o ∈ history, o.isPlay = true) →
      (m.keys :: m.keys.looks history).IsChain Keypad.Quiet →
      let seen := (m.keys.looks history).getLastD m.keys
      let keys := m.keys.after history
      let now := parked.waited x m.keys history
      parked.after history = now ∧
      (Keypad.Quiet seen keys →
        let later := { now with activity := .awaitingKey x keys }
        now.step = { machine := later } ∧
        ∀ count, now.runFrame (count + 1) = later.runFrame 0) ∧
      (¬ Keypad.Quiet seen keys →
        ∃ key, Keypad.NewlyDown seen keys key ∧
          (∀ other < key, ¬ Keypad.NewlyDown seen keys other) ∧
          now.step = { machine := now.resumed x key } ∧
          ∀ count, now.runFrame (count + 1) = (now.resumed x key).runFrame count) ∧
      ∀ key, (∀ before ∈ m.keys :: m.keys.looks history, before.isDown key = true) →
        ¬ Keypad.NewlyDown seen keys key) ∧
    (∀ history : List Operation,
      (m.keys :: m.keys.looks history).IsChain Keypad.Quiet ∨
        ∃ before o later, history = before ++ o :: later ∧ o.isLook = true ∧
          (m.keys :: m.keys.looks before).IsChain Keypad.Quiet ∧
          ¬ Keypad.Quiet ((m.keys.looks before).getLastD m.keys) (m.keys.after before)) := by
  intro parked
  have parks : m.step = { machine := parked } := Machine.step_of_awaitKey running word
  refine ⟨parks, ?_, ?_, Keypad.quiet_or_press m.keys m.keys⟩
  · intro start k count inside before reaches
    rw [← reaches] at parks
    exact Machine.runFrame_of_waiting_after before parks rfl inside
  · intro history play quiet seen keys now
    have waits : now.activity = .awaitingKey x seen := rfl
    have going := Machine.isHalted_of_waiting waits
    refine ⟨Machine.after_of_quiet rfl play quiet, ?_, ?_, ?_⟩
    · intro silent later
      have look : now.step = { machine := later } := Machine.step_of_quiet waits silent
      exact ⟨look, Machine.runFrame_succ_of_waiting going look rfl⟩
    · intro press
      obtain ⟨key, newly, lowest, look⟩ := Machine.step_of_press waits press
      refine ⟨key, newly, lowest, look, ?_⟩
      intro count
      have runs : now.step.machine.activity = .running := by
        rw [look]
        rfl
      rw [Machine.runFrame_succ_of_running going runs, look]
    · rintro key held ⟨_, up⟩
      have down : seen.isDown key = true := held seen List.getLastD_mem_cons
      rw [down] at up
      cases up

/-- A key that is held when the wait begins ends it only once it has been seen released and is
down again, and then it is taken before a higher key; meanwhile a timer has gone down by two. -/
theorem key_wait_protocol_held_key :
    let m := (Machine.powerOn {} 8 default).after
      [.load [0x62, 0x07, 0xF2, 0x15, 0xF3, 0x0A], .key 5 true, .step, .step]
    let history : List Operation :=
      [.frame 4, .frame 0, .key 5 false, .step, .key 9 true, .key 5 true]
    let now := m.step.machine.after history
    (m.activity = .running ∧ (m.fetch m.pc).toNat = 0xF30A) ∧
      now = m.step.machine.waited 3 m.keys history ∧
      (m.delay = 7 ∧ now.delay = 5) ∧
      now.step = { machine := now.resumed 3 5 } := by
  intro m history now
  have facts : (m.activity = .running ∧ (m.fetch m.pc).toNat = 0xF30A) ∧
      (m.delay = 7 ∧ now.delay = 5) ∧ m.keys = Keypad.released.set 5 true := by decide +kernel
  obtain ⟨asks, delays, held⟩ := facts
  -- the rest is about the keys alone
  have play : ∀ o ∈ history, o.isPlay = true := by decide
  have quiet : (m.keys :: m.keys.looks history).IsChain Keypad.Quiet := by
    rw [held]
    decide +kernel
  have press : ¬ Keypad.Quiet ((m.keys.looks history).getLastD m.keys)
      (m.keys.after history) := by
    rw [held]
    decide +kernel
  have only : ∀ key, Keypad.NewlyDown ((m.keys.looks history).getLastD m.keys)
      (m.keys.after history) key →
      (∀ other < key, ¬ Keypad.NewlyDown ((m.keys.looks history).getLastD m.keys)
        (m.keys.after history) other) → key = 5 := by
    rw [held]
    decide +kernel
  obtain ⟨parks, _, wait, _⟩ := key_wait_protocol (x := 3) asks.1 asks.2
  obtain ⟨stays, _, resumes, _⟩ := wait history play quiet
  obtain ⟨key, newly, lowest, look, _⟩ := resumes press
  have here : m.step.machine.after history = m.step.machine.waited 3 m.keys history := by
    rw [parks]
    exact stays
  refine ⟨asks, here, delays, ?_⟩
  rw [only key newly lowest] at look
  show (m.step.machine.after history).step =
    { machine := (m.step.machine.after history).resumed 3 5 }
  rw [here, parks]
  exact look

end Chip8
