import Chip8.Proofs.Histories

namespace Chip8

/-!
# Machines in lockstep

Two machines of which one is the other with some part changed do the same as long as the change
makes no difference to their instructions.  What is needed beside that is small: the change has no
part in what the machines are doing, and passes through a look at the keys and the end of a frame.

* `Outcome.onMachine` — an outcome with its machine changed.
* `Machine.Neutral` — a change that is noticed by instructions only, if at all.
* `Machine.step_onMachine` — a step that does not carry out an instruction is the same after the
  change, and one that does is if the instruction is.
* `Machine.steps_onMachine`, `Machine.runFrame_onMachine`, `Machine.outcomes_onMachine` — steps that
  the change makes no difference to add up to frames and histories that it makes no difference to.
-/

/-- An outcome with its machine changed. -/
def Outcome.onMachine (o : Outcome) (f : Machine → Machine) : Outcome :=
  { o with machine := f o.machine }

/-- Whether an operation takes steps. -/
def Operation.takesSteps : Operation → Bool
  | step | frame _ => true
  | _ => false

namespace Machine

/-- A change of machines that nothing but instructions can notice. -/
structure Neutral (f : Machine → Machine) : Prop where
  /-- It has no part in what a machine is doing. -/
  activity : ∀ m, (f m).activity = m.activity
  /-- It passes through a look at the keys. -/
  poll : ∀ m register seen, (f m).poll register seen = f (m.poll register seen)
  /-- It passes through the end of a frame. -/
  frameEnd : ∀ m, { (f m).countDown with frames := (f m).frames + 1 } =
    f { m.countDown with frames := m.frames + 1 }

section

variable {f : Machine → Machine} {m : Machine} {count : Nat} (neutral : Neutral f)
include neutral

theorem Neutral.isWaiting (m : Machine) : (f m).isWaiting = m.isWaiting := by
  rw [Machine.isWaiting, neutral.activity, ← Machine.isWaiting]

theorem Neutral.isHalted (m : Machine) : (f m).isHalted = m.isHalted := by
  rw [Machine.isHalted, neutral.activity, ← Machine.isHalted]

/-- A step does the same if the change makes no difference to its instruction, should it carry one
out. -/
theorem step_onMachine
    (instruction : m.activity = .running → (f m).dispatch = m.dispatch.onMachine f) :
    (f m).step = m.step.onMachine f := by
  have same := neutral.activity m
  cases activity : m.activity with
  | running =>
    rw [step_of_running activity, step_of_running (same.trans activity)]
    exact instruction activity
  | awaitingKey register seen =>
    rw [step_of_awaitingKey activity, step_of_awaitingKey (same.trans activity), neutral.poll]
    rfl
  | halted fault =>
    rw [step_of_halted activity, step_of_halted (same.trans activity)]
    rfl

/-- Steps do the same if the change makes no difference to any of them. -/
theorem steps_onMachine (same : ∀ b ∈ trail count m, (f b).step = b.step.onMachine f) :
    steps count (f m) = (steps count m).onMachine f := by
  induction count generalizing m with
  | zero => rfl
  | succ count ih =>
    have first : (f m).step = m.step.onMachine f := by
      apply same
      simp [trail]
    -- a fault and a wait stop both machines at this step
    have stops : ((m.step.onMachine f).fault?.isSome || (m.step.onMachine f).machine.isWaiting) =
        (m.step.fault?.isSome || m.step.machine.isWaiting) :=
      congrArg _ (neutral.isWaiting m.step.machine)
    rw [steps, steps, first, stops]
    cases stop : m.step.fault?.isSome || m.step.machine.isWaiting with
    | true => rfl
    | false =>
      show steps count (f m.step.machine) = (steps count m.step.machine).onMachine f
      apply ih
      intro b mem
      apply same b
      simp only [trail, stop]
      exact List.mem_cons_of_mem m mem

/-- So does a frame. -/
theorem runFrame_onMachine
    (same : ∀ b ∈ (Operation.frame count).trail m, (f b).step = b.step.onMachine f) :
    (f m).runFrame count = (m.runFrame count).onMachine f := by
  cases halted : m.isHalted with
  | true =>
    obtain ⟨fault, halted⟩ := m.isHalted_iff.mp halted
    have halted' : (f m).activity = .halted fault := (neutral.activity m).trans halted
    rw [runFrame_of_halted halted, runFrame_of_halted halted']
    rfl
  | false =>
    have halted' : (f m).isHalted = false := (neutral.isHalted m).trans halted
    simp only [Operation.trail, halted, Bool.false_eq_true, if_false] at same
    have fault : ((steps count m).onMachine f).fault? = (steps count m).fault? := rfl
    rw [runFrame_of_not_halted halted, runFrame_of_not_halted halted',
      steps_onMachine neutral same, fault]
    split
    · rfl
    · have ends := neutral.frameEnd (steps count m).machine
      exact congrArg (Outcome.mk · (steps count m).fault? (steps count m).notices) ends

/-- So does a history, if the change makes no difference to its other operations either. -/
theorem outcomes_onMachine {history : List Operation}
    (others : ∀ o ∈ history, o.takesSteps = false →
      ∀ m, o.perform (f m) = (o.perform m).onMachine f)
    (same : ∀ b ∈ m.historyTrail history, (f b).step = b.step.onMachine f) :
    (f m).outcomes history = (m.outcomes history).map (·.onMachine f) ∧
      (f m).after history = f (m.after history) := by
  induction history generalizing m with
  | nil => exact ⟨rfl, rfl⟩
  | cons o history ih =>
    have within : ∀ b ∈ o.trail m, (f b).step = b.step.onMachine f := by
      intro b mem
      exact same b (List.mem_append_left _ mem)
    have here : o.perform (f m) = (o.perform m).onMachine f := by
      cases o with
      | step => exact within m (List.mem_singleton_self m)
      | frame count => exact runFrame_onMachine neutral within
      | _ => exact others _ (by simp) rfl m
    obtain ⟨answers, ends⟩ := ih (m := (o.perform m).machine)
      (fun p mem => others p (by simp [mem]))
      (fun b mem => same b (List.mem_append_right _ mem))
    rw [outcomes, outcomes, after_cons, after_cons, here, List.map_cons]
    exact ⟨congrArg _ answers, ends⟩

end

end Machine

end Chip8
