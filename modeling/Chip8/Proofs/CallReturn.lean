import Chip8.Proofs.CallStack
import Chip8.Proofs.Dispatch
import Chip8.Proofs.Histories

namespace Chip8

/-!
# Calls and returns

A return goes back to the instruction after the call that it belongs to, whatever the
subroutine has done in between.  The reason is that steps only ever touch the stack at its
end: slots below the depth stay as they are until the stack has shrunk to them.

* `Machine.slot_step` — a step leaves the slots alone that are taken.
* `Machine.Inside` — a machine in the subroutine that another one has called.
* `Machine.inside_of_historyTrail` — that holds until a return from the subroutine.
* `return_of_call` — where the return leads to, and what it finds on the stack.
-/

namespace Machine

variable {m x : Machine}

/-! ### Steps and the call stack -/

/-- A step leaves the slots alone that are taken: a call writes the one after them. -/
theorem slot_step (m : Machine) {i : Fin 16} (taken : i.val < m.calls.depth) :
    m.step.machine.calls.slot i = m.calls.slot i := by
  have case := m.step_cases
  generalize m.step = o at case ⊢
  cases case with
  | refused | resumed | parked | stuck => rfl
  | executed =>
    rw [calls_complete, calls_execute]
    split
    · exact CallStack.slot_pop ..
    · exact CallStack.slot_push_of_lt _ _ taken
    · rfl

/-- A call with a free slot puts the address of the next instruction on the stack. -/
theorem calls_step_of_call (running : m.activity = .running)
    (call : (m.fetch m.pc).toNat / 0x1000 = 2) (room : m.calls.depth < 16) :
    m.step.machine.calls = m.calls.push m.next.pc := by
  have word := decode_of_first_digit_two call
  have accepted : m.refusal? (decode (m.fetch m.pc)) = none := by
    rw [word]
    exact (m.refusal?_call_eq_none_iff _).mpr room
  rw [step_of_running running]
  simp only [dispatch, accepted, calls_complete]
  rw [calls_execute, word]

/-- A return with an address on the stack takes it off and goes there. -/
theorem step_of_ret (running : m.activity = .running) (ret : m.fetch m.pc = 0x00EE)
    (taken : 0 < m.calls.depth) :
    m.step.fault? = none ∧ m.step.machine.calls = m.calls.pop ∧
      m.step.machine.pc = m.calls.top := by
  have word := (decode_eq_ret_iff _).mpr ret
  have accepted : m.refusal? (decode (m.fetch m.pc)) = none := by
    rw [word]
    exact m.refusal?_ret_eq_none_iff.mpr taken
  rw [step_of_running running]
  refine ⟨fault?_dispatch_of_accepted accepted, ?_, ?_⟩
  · simp only [dispatch, accepted, calls_complete]
    rw [calls_execute, word]
  · simp only [dispatch, accepted, pc_complete]
    rw [word]
    rfl

/-! ### Inside of a subroutine -/

/-- A machine is in the subroutine that another one has called: the slot after those that
were taken holds the return address, and those are as they were. -/
structure Inside (m x : Machine) : Prop where
  /-- The return address has not been taken off. -/
  depth : m.calls.depth < x.calls.depth
  /-- It leads to the instruction after the call. -/
  back : ∀ i : Fin 16, i.val = m.calls.depth → x.calls.slot i = m.next.pc
  /-- Slots that were taken before the call are as they were. -/
  below : ∀ i : Fin 16, i.val < m.calls.depth → x.calls.slot i = m.calls.slot i

/-- A call leads into its subroutine. -/
theorem inside_of_call (running : m.activity = .running)
    (call : (m.fetch m.pc).toNat / 0x1000 = 2) (room : m.calls.depth < 16) :
    Inside m m.step.machine := by
  have calls := calls_step_of_call running call room
  refine ⟨?_, ?_, ?_⟩
  · rw [calls, CallStack.depth_push _ _ room]
    omega
  · intro i last
    have same : i = ⟨m.calls.depth, room⟩ := Fin.ext last
    rw [calls, same, CallStack.slot_push_self]
  · intro i taken
    rw [calls]
    exact CallStack.slot_push_of_lt _ _ taken

/-- A step that does not take the return address off stays in the subroutine, whatever it
does to the slots above. -/
theorem inside_step (h : Inside m x) (stays : m.calls.depth < x.step.machine.calls.depth) :
    Inside m x.step.machine := by
  -- the slots in question were taken before the step, so it cannot have written them
  have depth := h.depth
  refine ⟨stays, ?_, ?_⟩
  · intro i last
    rw [x.slot_step (by omega)]
    exact h.back i last
  · intro i taken
    rw [x.slot_step (by omega)]
    exact h.below i taken

/-- Only the call stack matters for being in a subroutine. -/
theorem keptBetweenSteps_inside (m : Machine) :
    KeptBetweenSteps (fun _ => True) (Inside m) where
  countDown h := ⟨h.depth, h.back, h.below⟩
  frames _ h := ⟨h.depth, h.back, h.below⟩
  keys _ h := ⟨h.depth, h.back, h.below⟩
  dialect _ h := ⟨h.depth, h.back, h.below⟩
  traceLimit _ h := ⟨h.depth, h.back, h.below⟩
  poke _ _ _ h := ⟨h.depth, h.back, h.below⟩

/-- Every machine of a history is in the subroutine as long as no step before it has taken
the return address off. -/
theorem inside_of_historyTrail {history : List Operation} (calm : ∀ o ∈ history, ¬ o.Restarts)
    {body rest : List Machine} {r : Machine} (start : Inside m x)
    (trail : x.historyTrail history = body ++ r :: rest)
    (stays : ∀ b ∈ body, m.calls.depth < b.step.machine.calls.depth) : Inside m r := by
  have carried : Carried (Inside m) (fun b => m.calls.depth < b.step.machine.calls.depth)
      (x.historyTrail history) (x.after history) :=
    carried_historyTrail (keptBetweenSteps_inside m) inside_step (fun _ _ => trivial) calm start
  rw [trail] at carried
  exact carried.of_mem stays

end Machine

/-- A call and the return that belongs to it: take a machine that runs and calls with a free
slot, and any history without a restart after the call, in which up to some step the stack
keeps more than the slots that were taken before the call.  If that step returns and only one
more slot is taken, it leads to the instruction after the call, round the end of memory, and
leaves the stack as it was before the call. -/
theorem return_of_call {m : Machine} (running : m.activity = .running)
    (call : (m.fetch m.pc).toNat / 0x1000 = 2) (room : m.calls.depth < 16)
    {history : List Operation} (calm : ∀ o ∈ history, ¬ o.Restarts)
    {body rest : List Machine} {r : Machine}
    (trail : m.step.machine.historyTrail history = body ++ r :: rest)
    (stays : ∀ b ∈ body, m.calls.depth + 1 ≤ b.step.machine.calls.depth)
    (returning : r.activity = .running) (ret : r.fetch r.pc = 0x00EE)
    (depth : r.calls.depth = m.calls.depth + 1) :
    r.step.fault? = none ∧ r.step.machine.calls.depth = m.calls.depth ∧
      r.step.machine.pc.toNat = (m.pc.toNat + 2) % 0x1000 ∧
      ∀ i : Fin 16, i.val < m.calls.depth →
        r.step.machine.calls.slot i = m.calls.slot i := by
  -- nothing up to the return has touched the return address or the slots below it
  have inside : Machine.Inside m r :=
    Machine.inside_of_historyTrail calm (Machine.inside_of_call running call room) trail stays
  obtain ⟨calm, calls, pc⟩ := Machine.step_of_ret returning ret (by omega)
  refine ⟨calm, ?_, ?_, ?_⟩
  · rw [calls, CallStack.depth_pop]
    omega
  · -- the newest address is the one that the call left
    let last : Fin 16 := ⟨m.calls.depth, room⟩
    have newest : r.calls.top = r.calls.slot last := CallStack.top_eq_slot _ depth.symm
    rw [pc, newest, inside.back last rfl]
    exact toNat_addressAfter m.pc 2
  · intro i taken
    rw [calls, CallStack.slot_pop]
    exact inside.below i taken

/-- A subroutine called from another one calls a third, and returns in the middle of a
frame. -/
theorem return_of_call_nested :
    let m := (Machine.powerOn {} 0 default).after
      [.load [0x22, 0x04, 0x00, 0x00, 0x22, 0x08, 0x00, 0x00, 0x22, 0x0C, 0x00, 0xEE, 0x00, 0xEE],
        .step]
    let inner := (m.step.machine.step.machine.withKey 3 true).countDown
    let r := inner.step.machine
    (m.pc = 0x204 ∧ m.calls.depth = 1 ∧ r.calls.depth = 2) ∧
      r.step.fault? = none ∧ r.step.machine.calls.depth = m.calls.depth ∧
        r.step.machine.pc.toNat = (m.pc.toNat + 2) % 0x1000 ∧
        ∀ i : Fin 16, i.val < m.calls.depth →
          r.step.machine.calls.slot i = m.calls.slot i := by
  intro m inner r
  let history : List Operation := [.step, .key 3 true, .countDown, .frame 2]
  have calling : m.activity = .running ∧ (m.fetch m.pc).toNat / 0x1000 = 2 ∧
      (m.pc = 0x204 ∧ m.calls.depth = 1 ∧ r.calls.depth = 2) := by decide +kernel
  have between : inner.isHalted = false ∧
      (inner.step.fault?.isSome || inner.step.machine.isWaiting) = false ∧
      ∀ b ∈ [m.step.machine, inner], m.calls.depth + 1 ≤ b.step.machine.calls.depth := by
    decide +kernel
  have returning : r.activity = .running ∧ r.fetch r.pc = 0x00EE := by decide +kernel
  obtain ⟨running, call, depths⟩ := calling
  obtain ⟨going, onward, stays⟩ := between
  -- the trail of the history: the two steps of the nested call, and the one that returns
  have shape (x : Machine) : x.historyTrail history =
      x :: (Operation.frame 2).trail (x.step.machine.withKey 3 true).countDown := by
    simp only [history, Machine.historyTrail, Operation.trail, Operation.perform,
      List.nil_append, List.append_nil, List.singleton_append]
    rfl
  have frame : (Operation.frame 2).trail inner = [inner, r] := by
    simp only [Operation.trail, going, Machine.trail, onward, Bool.false_eq_true, if_false,
      ite_self, r]
  have trail : m.step.machine.historyTrail history = [m.step.machine, inner] ++ r :: [] := by
    rw [shape, frame]
    rfl
  have room : m.calls.depth < 16 := by omega
  have depth : r.calls.depth = m.calls.depth + 1 := by omega
  exact ⟨depths, return_of_call running call room (by decide) trail stays returning.1 returning.2
    depth⟩

end Chip8
