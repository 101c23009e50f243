import Chip8.Machine.CallStack

namespace Chip8

/-!
# Slots of the call stack

A push writes the slot after the taken ones and a pop writes none, so slots below the depth
keep their addresses for as long as they are taken.

* `CallStack.slot_push_of_ne`, `CallStack.slot_push_self`, `CallStack.slot_pop` — the slots
  after a push and after a pop.
* `CallStack.top_eq_slot`, `CallStack.top_eq_getLast` — the newest address is the one in the
  last slot taken, and the last of those that are taken.
-/

namespace CallStack

variable (s : CallStack) (address : UInt16)

theorem depth_push (h : s.depth < 16) : (s.push address).depth = s.depth + 1 := by
  simp only [push, h, dif_pos]

/-- A push leaves all slots alone but the one after those that are taken. -/
theorem slot_push_of_ne {i : Fin 16} (h : i.val ≠ s.depth) :
    (s.push address).slot i = s.slot i := by
  unfold push
  split
  · simp [slot, Vector.getElem_set_ne, h.symm]
  · rfl

/-- A push leaves the slots alone that are taken already. -/
theorem slot_push_of_lt {i : Fin 16} (h : i.val < s.depth) :
    (s.push address).slot i = s.slot i :=
  s.slot_push_of_ne address (Nat.ne_of_lt h)

/-- A push puts its address into the first free slot. -/
theorem slot_push_self (h : s.depth < 16) :
    (s.push address).slot ⟨s.depth, h⟩ = address := by
  simp [push, h, slot]

@[simp] theorem depth_pop : s.pop.depth = s.depth - 1 := rfl

/-- A pop changes no slot. -/
@[simp] theorem slot_pop (i : Fin 16) : s.pop.slot i = s.slot i := rfl

/-- The newest address is the one in the last slot taken. -/
theorem top_eq_slot {i : Fin 16} (h : i.val + 1 = s.depth) : s.top = s.slot i := by
  have last : s.depth - 1 = i.val := by omega
  simp [top, slot, last]

/-- The newest address is the last of those that are taken. -/
theorem top_eq_getLast (taken : 0 < s.depth) : s.top = s.live.getLast?.getD 0 := by
  have bound := s.depth_le
  have last : s.depth - 1 < s.depth := Nat.sub_lt taken Nat.one_pos
  have cell : s.live[s.depth - 1]? = s.slots.toList[s.depth - 1]? := by
    rw [live, List.getElem?_take, if_pos last]
  rw [List.getLast?_eq_getElem?, length_live, cell, Vector.getElem?_toList]
  rfl

end CallStack

end Chip8
