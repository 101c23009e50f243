import Chip8.Proofs.CallStack
import Chip8.Proofs.Dispatch
import Chip8.Proofs.Histories

namespace Chip8

/-!
# Addresses stay in range

The program counter and the return addresses are words, and could hold numbers that no cell
has.  In every machine that can be reached they do not.

* `Machine.InRange` — the program counter and the slots that are taken hold cells.
* `Machine.inRange_step` — a step keeps that.
* `Machine.Reachable.inRange` — so it holds of every machine that can be reached.
-/

namespace Machine

/-- The program counter names a cell, and so does every return address on the stack.  Slots
that are not taken are left out: nothing reads them. -/
structure InRange (m : Machine) : Prop where
  /-- The program counter names a cell. -/
  pc : m.pc.toNat < 4096
  /-- Return addresses name cells. -/
  slot : ∀ i : Fin 16, i.val < m.calls.depth → (m.calls.slot i).toNat < 4096

/-- A cell number is in range as a word. -/
theorem toNat_toWord_lt (a : Address) : a.toWord.toNat < 4096 := by
  rw [Address.toNat_toWord]
  exact a.isLt

/-- The address after an instruction is in range. -/
theorem toNat_pc_next_lt (m : Machine) : m.next.pc.toNat < 4096 := toNat_toWord_lt _

/-- Only the program counter and the call stack matter for the range. -/
theorem InRange.congr {m m' : Machine} (h : InRange m) (pc : m'.pc = m.pc)
    (calls : m'.calls = m.calls) : InRange m' := by
  refine ⟨?_, ?_⟩
  · rw [pc]
    exact h.pc
  · rw [calls]
    exact h.slot

/-- A push of an address in range leaves the slots in range. -/
theorem slot_push_lt {s : CallStack} {address : UInt16} (new : address.toNat < 4096)
    (old : ∀ i : Fin 16, i.val < s.depth → (s.slot i).toNat < 4096) (i : Fin 16)
    (taken : i.val < (s.push address).depth) : ((s.push address).slot i).toNat < 4096 := by
  by_cases room : s.depth < 16
  · rw [CallStack.depth_push s address room] at taken
    by_cases below : i.val < s.depth
    · rw [CallStack.slot_push_of_lt s address below]
      exact old i below
    · -- the slot is the one just taken
      have same : i = ⟨s.depth, room⟩ := Fin.ext (by simp only; omega)
      rw [same, CallStack.slot_push_self]
      exact new
  · simp only [CallStack.push, room, dif_neg, not_false_eq_true] at taken ⊢
    exact old i taken

/-- An instruction that is not refused keeps addresses in range. -/
theorem inRange_execute {m : Machine} {i : Instruction} (h : InRange m)
    (accepted : m.refusal? i = none) : InRange (m.execute i) := by
  refine ⟨?_, ?_⟩
  · rcases pc_execute m i with stays | ⟨rfl, returns⟩ | ⟨a, jumps⟩
    · rw [stays]
      exact h.pc
    · -- a return is refused on an empty stack, so there is a newest address
      have nonempty := m.refusal?_ret_eq_none_iff.mp accepted
      have bound := m.calls.depth_le
      let newest : Fin 16 := ⟨m.calls.depth - 1, by omega⟩
      have last : newest.val + 1 = m.calls.depth := Nat.sub_add_cancel nonempty
      rw [returns, CallStack.top_eq_slot _ last]
      exact h.slot newest (by omega)
    · rw [jumps]
      exact toNat_toWord_lt a
  · rw [calls_execute]
    intro k
    split
    · rw [CallStack.depth_pop, CallStack.slot_pop]
      intro taken
      exact h.slot k (by omega)
    · exact slot_push_lt m.toNat_pc_next_lt h.slot k
    · exact h.slot k

/-- A step keeps addresses in range. -/
theorem inRange_step {m : Machine} (h : InRange m) : InRange m.step.machine := by
  have case := m.step_cases
  generalize m.step = o at case ⊢
  -- only an instruction that is carried out and the end of a wait move the program counter
  cases case with
  | refused => exact h.congr rfl rfl
  | executed _ accepted traffic =>
    have after := inRange_execute h accepted
    exact after.congr (pc_complete ..) (calls_complete ..)
  | resumed => exact ⟨m.toNat_pc_next_lt, h.slot⟩
  | parked => exact h.congr rfl rfl
  | stuck => exact h

/-- Addresses in range are an invariant of all operations. -/
theorem invariant_inRange : Invariant (fun _ => True) InRange where
  fresh dialect limit random memory := by
    refine ⟨?_, ?_⟩
    · show (UInt16.ofNat programStart).toNat < 4096
      decide
    intro i taken
    exact absurd taken (Nat.not_lt_zero i.val)
  step := inRange_step
  countDown h := h.congr rfl rfl
  frames _ h := h.congr rfl rfl
  keys _ h := h.congr rfl rfl
  dialect _ h := h.congr rfl rfl
  traceLimit _ h := h.congr rfl rfl
  poke _ _ _ h := h.congr rfl rfl

/-- Addresses are in range in every machine that can be reached. -/
theorem Reachable.inRange {m : Machine} (h : Reachable (fun _ => True) m) : InRange m :=
  invariant_inRange.of_reachable h

end Machine

end Chip8
