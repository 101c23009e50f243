namespace Chip8

/-!
# The call stack

The call stack has sixteen slots, of which the first `depth` are taken.  A return leaves
its slot as it is, so slots that are not taken may hold old addresses.

* `CallStack.live` — the addresses in the slots that are taken, oldest first.
* `CallStack.push`, `CallStack.pop` — one slot more or fewer; a full stack takes no more
  and an empty one gives nothing up.
-/

/-- Sixteen slots for return addresses, some of them taken. -/
@[ext] structure CallStack where
  /-- All slots. -/
  slots : Vector UInt16 16
  /-- How many slots are taken. -/
  depth : Nat
  /-- No more slots are taken than there are. -/
  depth_le : depth ≤ 16 := by omega

namespace CallStack

/-- How many slots there are. -/
def capacity : Nat := 16

/-- The stack with no slot taken and nothing in the slots. -/
def empty : CallStack where
  slots := Vector.replicate 16 0
  depth := 0

instance : Inhabited CallStack := ⟨empty⟩

/-- The addresses in the slots that are taken, oldest first. -/
def live (s : CallStack) : List UInt16 := s.slots.toList.take s.depth

/-- Whether all slots are taken. -/
def isFull (s : CallStack) : Bool := s.depth == capacity

/-- Whether no slot is taken. -/
def isEmpty (s : CallStack) : Bool := s.depth == 0

/-- The address in a slot. -/
def slot (s : CallStack) (i : Fin 16) : UInt16 := s.slots[i]

/-- The address taken last; zero if none is. -/
def top (s : CallStack) : UInt16 := s.slots[s.depth - 1]?.getD 0

/-- Take a slot for an address, if there is one left. -/
def push (s : CallStack) (address : UInt16) : CallStack :=
  if h : s.depth < 16 then
    { slots := s.slots.set s.depth address, depth := s.depth + 1 }
  else s

/-- Give up the slot taken last, if there is one. -/
def pop (s : CallStack) : CallStack :=
  { s with depth := s.depth - 1, depth_le := Nat.le_trans (Nat.sub_le _ _) s.depth_le }

/-- The stack in which the first sixteen of given addresses are taken. -/
def ofList (addresses : List UInt16) : CallStack := addresses.foldl push empty

@[simp] theorem live_empty : empty.live = [] := rfl

@[simp] theorem length_live (s : CallStack) : s.live.length = s.depth := by
  have := s.depth_le
  simp [live]
  omega

/-- Below its capacity a stack takes every address. -/
theorem live_push (s : CallStack) (address : UInt16) (h : s.depth < 16) :
    (s.push address).live = s.live ++ [address] := by
  apply List.ext_getElem?
  intro i
  have len : s.slots.toList.length = 16 := by simp
  simp only [push, h, dif_pos, live, Vector.toList_set, List.getElem?_take, List.getElem?_append,
    List.length_take, len, List.getElem?_set]
  rcases Nat.lt_trichotomy i s.depth with hi | rfl | hi
  · have : i < min s.depth 16 := by omega
    simp [Nat.lt_succ_of_lt hi, hi, this, Nat.ne_of_gt hi]
  · simp [Nat.min_eq_left (Nat.le_of_lt h)]
  · have h1 : ¬ i < s.depth + 1 := by omega
    have h2 : ¬ i < min s.depth 16 := by omega
    have h3 : i - min s.depth 16 ≠ 0 := by omega
    simp [h1, h2, List.getElem?_eq_none, Nat.one_le_iff_ne_zero.mpr h3]

/-- Giving up a slot drops the newest address. -/
theorem live_pop (s : CallStack) : s.pop.live = s.live.dropLast := by
  have := s.depth_le
  have len : s.slots.toList.length = 16 := by simp
  rw [List.dropLast_eq_take]
  simp [live, pop, List.take_take, len]
  omega

end CallStack

end Chip8
