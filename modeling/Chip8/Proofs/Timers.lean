import Chip8.Proofs.Dispatch
import Chip8.Proofs.Frames

namespace Chip8

/-!
# Timers

The two timers go down once at the end of every frame, whatever the steps of the frame do and
however many there are, and stop at zero.  The only other thing that happens to a timer is that
an instruction starts it at the byte in a register.

* `lowered` — a timer after it has gone down a number of times.
* `Timer`, `Machine.StartsTimer` — the two timers, and when a step starts one of them.
* `Machine.timer_step_of_startsTimer`, `Machine.timer_step_of_not_startsTimer` — a timer after
  one step.
* `Machine.timer_after_of_unset`, `Machine.timer_after_of_startsTimer` — a timer after a history
  in which no step starts it, and after one in whose first frame a step starts it last.
* `timers_age_by_frames` — a timer after any history, told from the step that started it last.
-/

/-! ### Going down -/

/-- A timer after it has gone down a number of times; it stops at zero. -/
def lowered (timer : UInt8) (count : Nat) : UInt8 := UInt8.ofNat (timer.toNat - count)

theorem toNat_lowered (timer : UInt8) (count : Nat) :
    (lowered timer count).toNat = timer.toNat - count := by
  have := timer.toNat_lt
  rw [lowered, UInt8.toNat_ofNat']
  omega

@[simp] theorem lowered_zero (timer : UInt8) : lowered timer 0 = timer := by
  apply UInt8.toNat_inj.mp
  rw [toNat_lowered, Nat.sub_zero]

theorem lowered_one (timer : UInt8) : lowered timer 1 = if timer = 0 then 0 else timer - 1 := by
  apply UInt8.toNat_inj.mp
  rw [toNat_lowered]
  split
  · next zero =>
    subst zero
    rfl
  · next positive =>
    have nonzero : timer.toNat ≠ 0 := fun h => positive (UInt8.toNat_inj.mp h)
    have low : 1 ≤ timer := UInt8.le_iff_toNat_le.mpr (Nat.one_le_iff_ne_zero.mpr nonzero)
    rw [UInt8.toNat_sub_of_le _ _ low]
    rfl

theorem lowered_lowered (timer : UInt8) (first second : Nat) :
    lowered (lowered timer first) second = lowered timer (first + second) := by
  apply UInt8.toNat_inj.mp
  simp only [toNat_lowered, Nat.sub_sub]

/-! ### Starting a timer -/

/-- One of the two timers. -/
inductive Timer where
  | delay | sound
  deriving DecidableEq

namespace Timer

/-- The low byte of the words that start a timer. -/
def lowByte : Timer → Nat
  | delay => 0x15
  | sound => 0x18

/-- The instruction that starts a timer from a register. -/
def starter : Timer → Register → Instruction
  | delay, x => .setDelay x
  | sound, x => .setSound x

theorem toNat_encode_starter (t : Timer) (x : Register) :
    (t.starter x).encode.toNat = 0xF000 + x.val * 0x100 + t.lowByte := by
  cases t <;> simp [starter, Instruction.encode, toNat_wordOfByte, lowByte]

/-- The words that start a timer, each naming its register by the second digit. -/
theorem decode_eq_starter_iff (t : Timer) (w : UInt16) (x : Register) :
    decode w = t.starter x ↔ w.toNat = 0xF000 + x.val * 0x100 + t.lowByte := by
  rw [← t.toNat_encode_starter x]
  constructor
  · intro h
    rw [eq_encode_of_decode h]
  · intro h
    cases t <;> exact decode_of_toNat_eq nofun nofun h

end Timer

namespace Machine

variable {m : Machine} {t : Timer}

/-- What a timer shows. -/
def timer (m : Machine) : Timer → UInt8
  | .delay => m.delay
  | .sound => m.sound

/-- Whether the step of a machine carries out the instruction that starts a timer at the byte in
a register. -/
def StartsTimer (m : Machine) (t : Timer) (x : Register) : Prop :=
  m.activity = .running ∧ (m.fetch m.pc).toNat = 0xF000 + x.val * 0x100 + t.lowByte

instance (m : Machine) (t : Timer) (x : Register) : Decidable (m.StartsTimer t x) :=
  inferInstanceAs (Decidable (_ ∧ _))

/-! ### Steps -/

theorem timer_execute_starter (m : Machine) (t : Timer) (x : Register) :
    (m.execute (t.starter x)).timer t = m.reg x := by
  cases t <;> rfl

/-- No other instruction touches a timer. -/
theorem timer_execute_of_ne_starter (m : Machine) {t : Timer} {i : Instruction}
    (other : ∀ x, i ≠ t.starter x) : (m.execute i).timer t = m.timer t := by
  cases t <;> cases i
  case delay.setDelay x => exact absurd rfl (other x)
  case sound.setSound x => exact absurd rfl (other x)
  all_goals rfl

theorem timer_complete (m : Machine) (t : Timer) (pc word : UInt16) (form : Form)
    (traffic : List Transfer) : (m.complete pc word form traffic).timer t = m.timer t := by
  obtain ⟨timeline, recorded⟩ := m.exists_timeline_complete pc word form traffic
  rw [recorded]
  cases t <;> rfl

/-- The step that starts a timer leaves it at the byte in the register. -/
theorem timer_step_of_startsTimer {x : Register} (starts : m.StartsTimer t x) :
    m.step.machine.timer t = m.reg x := by
  obtain ⟨running, word⟩ := starts
  have decoded := (t.decode_eq_starter_iff _ x).mpr word
  have accepted : m.refusal? (decode (m.fetch m.pc)) = none := by
    rw [decoded]
    cases t <;> rfl
  rw [step_of_running running, dispatch_of_accepted accepted, timer_complete, decoded]
  exact m.timer_execute_starter t x

/-- Every other step leaves it as it is. -/
theorem timer_step_of_not_startsTimer (unset : ∀ x, ¬ m.StartsTimer t x) :
    m.step.machine.timer t = m.timer t := by
  have case := m.step_cases
  generalize m.step = o at case ⊢
  cases case with
  | refused | resumed | parked | stuck => cases t <;> rfl
  | executed running =>
    rw [timer_complete]
    refine m.timer_execute_of_ne_starter ?_
    intro x decoded
    exact unset x ⟨running, (t.decode_eq_starter_iff _ x).mp decoded⟩

/-- Steps of which none starts a timer leave it as it is. -/
theorem timer_steps_of_unset {count : Nat}
    (unset : ∀ b ∈ trail count m, ∀ x, ¬ b.StartsTimer t x) :
    (steps count m).machine.timer t = m.timer t := by
  induction count generalizing m with
  | zero => rfl
  | succ count ih =>
    rcases steps_succ count m with ⟨last, alone⟩ | ⟨_, _, onward, rest⟩
    · rw [alone] at unset
      rw [last]
      exact timer_step_of_not_startsTimer (unset m (by simp))
    · rw [rest] at unset
      have here := timer_step_of_not_startsTimer (unset m (by simp))
      rw [onward, ih fun b mem => unset b (List.mem_cons_of_mem m mem), here]

/-- Steps of which one starts a timer, and none after it does, leave it at what it was started
at. -/
theorem timer_steps_of_startsTimer {count : Nat} {first rest : List Machine} {b : Machine}
    {x : Register} (split : trail count m = first ++ b :: rest) (starts : b.StartsTimer t x)
    (unset : ∀ c ∈ rest, ∀ y, ¬ c.StartsTimer t y) :
    (steps count m).machine.timer t = b.reg x := by
  obtain ⟨left, trail_b, onward⟩ := steps_of_trail_eq_append split
  have started := timer_step_of_startsTimer starts
  rw [onward]
  rcases steps_succ left b with ⟨last, _⟩ | ⟨_, _, onward, more⟩
  · rw [last]
    exact started
  · -- the steps that are left do not start it again
    have same : rest = trail left b.step.machine := by
      rw [trail_b] at more
      exact (List.cons.inj more).2
    rw [onward, timer_steps_of_unset (same ▸ unset)]
    exact started

/-! ### Frames -/

theorem timer_countDown (m : Machine) (t : Timer) :
    m.countDown.timer t = lowered (m.timer t) 1 := by
  cases t <;> simp [timer, countDown, lowered_one]

/-- A frame that reports no fault lets a timer go down once after its steps. -/
theorem timer_runFrame {count : Nat} (calm : (m.runFrame count).fault? = none) (t : Timer) :
    (m.runFrame count).machine.timer t = lowered ((steps count m).machine.timer t) 1 := by
  obtain ⟨_, _, ends⟩ := machine_runFrame_of_calm calm
  rw [ends, ← timer_countDown]
  cases t <;> rfl

/-! ### Histories -/

/-- An operation that neither restarts the machine nor reports a fault, and in which no step
starts a timer, lets it go down if it is one that does. -/
theorem timer_perform_of_unset {o : Operation} (calm : ¬ o.Restarts)
    (faultless : (o.perform m).fault? = none)
    (unset : ∀ b ∈ o.trail m, ∀ x, ¬ b.StartsTimer t x) :
    (o.perform m).machine.timer t = lowered (m.timer t) (if o.isTick then 1 else 0) := by
  cases o with
  | reset => exact absurd trivial calm
  | load program =>
    show (m.load program).machine.timer t = _
    rw [machine_load_of_not_restarts calm]
    exact (lowered_zero _).symm
  | step =>
    show m.step.machine.timer t = lowered (m.timer t) 0
    rw [lowered_zero]
    exact timer_step_of_not_startsTimer (unset m (List.mem_singleton_self m))
  | frame count =>
    show (m.runFrame count).machine.timer t = lowered (m.timer t) 1
    have going := (machine_runFrame_of_calm faultless).1
    rw [trail_frame going] at unset
    rw [timer_runFrame faultless, timer_steps_of_unset unset]
  | countDown => exact timer_countDown m t
  | key | setDialect | setTraceLimit | poke =>
    show _ = lowered (m.timer t) 0
    rw [lowered_zero]
    cases t <;> rfl

/-- A timer that no step of a history starts goes down as often as the history says. -/
theorem timer_after_of_unset {history : List Operation} (calm : ∀ o ∈ history, ¬ o.Restarts)
    (faultless : ∀ left ∈ m.outcomes history, left.fault? = none)
    (unset : ∀ b ∈ m.historyTrail history, ∀ x, ¬ b.StartsTimer t x) :
    (m.after history).timer t = lowered (m.timer t) (history.countP Operation.isTick) := by
  induction history generalizing m with
  | nil => exact (lowered_zero _).symm
  | cons o history ih =>
    have answered := faultless (o.perform m) (by simp [outcomes])
    have here := timer_perform_of_unset (calm o (by simp)) answered
      fun b mem => unset b (List.mem_append_left _ mem)
    have later := ih (m := (o.perform m).machine) (fun p mem => calm p (by simp [mem]))
      (fun left mem => faultless left (by simp [outcomes, mem]))
      fun b mem => unset b (List.mem_append_right _ mem)
    rw [after_cons, later, here, lowered_lowered, List.countP_cons, Nat.add_comm]

/-- A timer that a step of a frame starts, and no later step does, goes down from there at the
end of that frame and then as often as the rest of the history says. -/
theorem timer_after_of_startsTimer {count : Nat} {later : List Operation}
    {first rest : List Machine} {b : Machine} {x : Register}
    (calm : ∀ o ∈ later, ¬ o.Restarts)
    (faultless : ∀ left ∈ m.outcomes (.frame count :: later), left.fault? = none)
    (split : (Operation.frame count).trail m = first ++ b :: rest) (starts : b.StartsTimer t x)
    (unset : ∀ c ∈ rest ++ (m.runFrame count).machine.historyTrail later,
      ∀ y, ¬ c.StartsTimer t y) :
    (m.after (.frame count :: later)).timer t =
      lowered (b.reg x) (1 + later.countP Operation.isTick) := by
  have frame : (m.runFrame count).fault? = none := faultless _ (List.mem_cons_self ..)
  have going := (machine_runFrame_of_calm frame).1
  rw [trail_frame going] at split
  have started := timer_steps_of_startsTimer split starts
    fun c mem => unset c (List.mem_append_left _ mem)
  have since := timer_after_of_unset (m := (m.runFrame count).machine) calm
    (fun left mem => faultless left (List.mem_cons_of_mem _ mem))
    fun c mem => unset c (List.mem_append_right _ mem)
  show ((m.runFrame count).machine.after later).timer t = _
  rw [since, timer_runFrame frame, started, lowered_lowered]

end Machine

/-- Timers age by frames only.  Take any history that neither restarts the machine nor reports a
fault, and count the operations at whose end the timers go down.  A timer that no step of the
history starts has gone down that often, whether the machine runs, waits for a key, or does one
after the other in the middle of a frame.  If some step in a frame starts it and no step after
that one does, the step leaves it at the byte in the register, and since then it has gone down
at the end of that frame and as often as later operations say.  It never goes below zero. -/
theorem timers_age_by_frames {m : Machine} {history : List Operation}
    (calm : ∀ o ∈ history, ¬ o.Restarts)
    (faultless : ∀ left ∈ m.outcomes history, left.fault? = none) (t : Timer) :
    let ticks := history.countP Operation.isTick
    ((∀ b ∈ m.historyTrail history, ∀ x, ¬ b.StartsTimer t x) →
      ((m.after history).timer t).toNat = (m.timer t).toNat - ticks) ∧
    (∀ (before later : List Operation) (count : Nat) (first rest : List Machine) (b : Machine)
        (x : Register),
      history = before ++ .frame count :: later →
      (Operation.frame count).trail (m.after before) = first ++ b :: rest →
      b.StartsTimer t x →
      (∀ c ∈ rest ++ (m.after (before ++ [.frame count])).historyTrail later,
        ∀ y, ¬ c.StartsTimer t y) →
      let tick := before.countP Operation.isTick + 1
      b.step.machine.timer t = b.reg x ∧
        ((m.after history).timer t).toNat = (b.reg x).toNat - (ticks - tick + 1)) := by
  intro ticks
  refine ⟨?_, ?_⟩
  · intro unset
    rw [Machine.timer_after_of_unset calm faultless unset, toNat_lowered]
  · rintro before later count first rest b x rfl split starts unset tick
    refine ⟨Machine.timer_step_of_startsTimer starts, ?_⟩
    rw [Machine.outcomes_append] at faultless
    rw [Machine.after_append] at unset
    have since := Machine.timer_after_of_startsTimer (fun o mem => calm o (by simp [mem]))
      (fun left mem => faultless left (List.mem_append_right _ mem)) split starts unset
    have counted :
        ticks = before.countP Operation.isTick + (later.countP Operation.isTick + 1) := by
      show (before ++ Operation.frame count :: later).countP Operation.isTick = _
      rw [List.countP_append, List.countP_cons]
      rfl
    rw [Machine.after_append, since, toNat_lowered]
    omega

/-- A program that starts the delay timer, waits for a key, starts the sound timer at the key and
then goes round in a loop.  Over three frames, in the first of which it comes to wait and in the
second of which it goes on, the delay timer goes down by three; the sound timer, started at seven
in the second frame, goes down by two. -/
theorem timers_age_by_frames_wait_in_frame :
    let m := (Machine.powerOn {} 8 default).after
      [.load [0x62, 0x05, 0xF2, 0x15, 0xF3, 0x0A, 0xF3, 0x18, 0x12, 0x08], .frame 2]
    let history : List Operation := [.frame 3, .key 7 true, .frame 2, .frame 0]
    (m.timer .delay = 4 ∧ ∀ left ∈ m.outcomes history, left.fault? = none) ∧
      ((m.after history).timer .delay).toNat = 4 - 3 ∧
      ((m.after history).timer .sound).toNat = 7 - (3 - 2 + 1) := by
  intro m history
  let pressed := m.after [.frame 3, .key 7 true]
  have facts : (m.timer .delay = 4 ∧ ∀ left ∈ m.outcomes history, left.fault? = none) ∧
      ∀ b ∈ m.historyTrail history, ∀ x, ¬ b.StartsTimer .delay x := by decide +kernel
  have sounds : pressed.step.machine.StartsTimer .sound 3 ∧ pressed.step.machine.reg 3 = 7 ∧
      ∀ c ∈ [] ++ (m.after [.frame 3, .key 7 true, .frame 2]).historyTrail [.frame 0],
        ∀ y, ¬ c.StartsTimer .sound y := by decide +kernel
  have between : pressed.isHalted = false ∧
      (pressed.step.fault?.isSome || pressed.step.machine.isWaiting) = false := by decide +kernel
  obtain ⟨⟨shows, faultless⟩, unset⟩ := facts
  obtain ⟨starts, seven, later⟩ := sounds
  obtain ⟨going, onward⟩ := between
  have calm : ∀ o ∈ history, ¬ o.Restarts := by decide
  -- the look that ends the wait is the first step of its frame, and the start the second
  have split : (Operation.frame 2).trail pressed = [pressed] ++ pressed.step.machine :: [] := by
    rw [Machine.trail_frame going]
    simp only [Machine.trail, onward, Bool.false_eq_true, if_false, ite_self]
    rfl
  have delay := (timers_age_by_frames calm faultless .delay).1 unset
  have sound := (timers_age_by_frames calm faultless .sound).2 [.frame 3, .key 7 true] [.frame 0]
    2 [pressed] [] pressed.step.machine 3 rfl split starts later
  refine ⟨⟨shows, faultless⟩, ?_, ?_⟩
  · rw [delay, shows]
    rfl
  · rw [sound.2, seven]
    rfl

end Chip8
