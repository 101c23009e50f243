import Chip8.SquareWave
import Mathlib.Algebra.BigOperators.Group.List.Basic
import Mathlib.Algebra.GroupWithZero.Nat
import Mathlib.Algebra.Ring.Int.Defs
import Mathlib.Data.List.Range
import Mathlib.Logic.Function.Iterate

namespace Chip8

/-!
# The tone does not depend on the buffers

A wave has samples of its own, whatever buffers they are written into.  A buffer takes the samples
that come next, and the next buffer goes on from there; so nothing is lost or said twice where one
buffer ends and another begins.  About phases it is only used that they are compared, added and
subtracted.

* `SquareWave.later`, `SquareWave.upcoming` — the wave some samples later, and the samples until then.
* `SquareWave.write_eq`, `SquareWave.fill_eq` — what is written into a buffer.
* `SquareWave.fillEach_eq` — what is written into several buffers, one after another.
* `tone_continues_across_buffers` — the samples of several buffers are those of one large buffer.
-/

namespace SquareWave

/-! ### Samples to come -/

/-- The wave some samples later. -/
def later (w : SquareWave) (count : Nat) : SquareWave := advance^[count] w

/-- The next samples. -/
def upcoming (w : SquareWave) (count : Nat) : List Int :=
  (List.range count).map fun k => (w.later k).level

section Upcoming

variable (w : SquareWave) (first second count : Nat)

theorem later_add : w.later (first + second) = (w.later first).later second := by
  rw [later, Nat.add_comm, Function.iterate_add_apply]
  rfl

@[simp] theorem length_upcoming : (w.upcoming count).length = count := by
  simp [upcoming]

/-- Samples can be taken in two goes. -/
theorem upcoming_add :
    w.upcoming (first + second) = w.upcoming first ++ (w.later first).upcoming second := by
  rw [upcoming, List.range_add, List.map_append, List.map_map]
  congr 1
  apply List.map_congr_left
  intro k _
  rw [Function.comp_apply, later_add]

theorem upcoming_succ : w.upcoming (count + 1) = w.level :: w.advance.upcoming count := by
  rw [Nat.add_comm, upcoming_add]
  rfl

/-- The wave is at one of its two levels. -/
theorem level_of_mem_upcoming {s : Int} (h : s ∈ w.upcoming count) : s = 3000 ∨ s = -3000 := by
  obtain ⟨k, -, rfl⟩ := List.mem_map.mp h
  rw [level]
  split
  · exact .inl rfl
  · exact .inr rfl

/-- The step of a wave stays. -/
theorem step_later : (w.later count).step = w.step := by
  induction count with
  | zero => rfl
  | succ count ih =>
    rw [later_add]
    exact ih

end Upcoming

/-! ### One buffer -/

/-- The samples to come replace those from a place on, as far as there is room for them. -/
theorem write_eq (count place : Nat) (w : SquareWave) (buffer : Array Int)
    (room : place + count ≤ buffer.size) :
    (write count place w buffer).1.toList =
        buffer.toList.take place ++ w.upcoming count ++ buffer.toList.drop (place + count) ∧
      (write count place w buffer).2 = w.later count := by
  induction count generalizing place w buffer with
  | zero => simp [write, upcoming, later]
  | succ count ih =>
    have inside : place < buffer.toList.length := by
      rw [Array.length_toList]
      omega
    obtain ⟨samples, wave⟩ :=
      ih (place + 1) w.advance (buffer.setIfInBounds place w.level) (by
        rw [Array.size_setIfInBounds]
        omega)
    refine ⟨?_, ?_⟩
    · -- the sample just written is the last one of those before the next place
      rw [write, samples, upcoming_succ, Array.toList_setIfInBounds]
      rw [List.take_succ_eq_append_getElem (by simpa using inside), List.getElem_set_self,
        List.take_set_of_le (Nat.le_refl place), List.drop_set_of_lt (by omega)]
      simp [Nat.add_comm, Nat.add_left_comm]
    · rw [write, wave, Nat.add_comm count 1, later_add]
      rfl

/-- A length covers half as many samples, and a negative one none. -/
theorem sampleCount_eq (length : Int) : sampleCount length = (max length 0).toNat / 2 := by
  rw [sampleCount]
  rcases Int.le_total 0 length with above | below
  · rw [Int.tdiv_eq_ediv_of_nonneg above]
    omega
  · -- division rounds towards zero, so the sign is taken off before it rounds down
    have same : length.tdiv 2 = -((-length).tdiv 2) := by rw [Int.neg_tdiv, Int.neg_neg]
    rw [same, Int.tdiv_eq_ediv_of_nonneg (by omega)]
    omega

/-- Where there is room, a buffer takes the samples to come and keeps the rest. -/
theorem fill_eq (w : SquareWave) (length : Int) {buffer : List Int}
    (room : sampleCount length ≤ buffer.length) :
    w.fill length buffer =
      (w.upcoming (sampleCount length) ++ buffer.drop (sampleCount length),
        w.later (sampleCount length)) := by
  obtain ⟨samples, wave⟩ := write_eq (sampleCount length) 0 w buffer.toArray (by simpa using room)
  rw [fill]
  simp [samples, wave]

/-! ### Several buffers -/

/-- Fill several buffers, each up to a length of its own, one after another. -/
def fillEach (w : SquareWave) : List (Int × List Int) → List (List Int) × SquareWave
  | [] => ([], w)
  | (length, buffer) :: calls =>
    let (samples, next) := w.fill length buffer
    let (others, last) := next.fillEach calls
    (samples :: others, last)

/-- What has been written into buffers, one after another. -/
def written (calls : List (Int × List Int)) (filled : List (List Int)) : List Int :=
  (List.zipWith (fun call samples => samples.take (sampleCount call.1)) calls filled).flatten

/-- The samples that lengths cover altogether. -/
def totalCount (calls : List (Int × List Int)) : Nat := (calls.map fun call => sampleCount call.1).sum

/-- Several buffers take the samples to come one after another. -/
theorem fillEach_eq (w : SquareWave) (calls : List (Int × List Int))
    (room : ∀ call ∈ calls, sampleCount call.1 ≤ call.2.length) :
    written calls (w.fillEach calls).1 = w.upcoming (totalCount calls) ∧
      (w.fillEach calls).2 = w.later (totalCount calls) := by
  induction calls generalizing w with
  | nil => exact ⟨rfl, rfl⟩
  | cons call calls ih =>
    obtain ⟨length, buffer⟩ := call
    have here : sampleCount length ≤ buffer.length := room _ (List.mem_cons_self ..)
    obtain ⟨samples, wave⟩ :=
      ih (w.later (sampleCount length)) fun call mem => room call (List.mem_cons_of_mem _ mem)
    have total : totalCount ((length, buffer) :: calls) = sampleCount length + totalCount calls := rfl
    rw [fillEach, fill_eq w length here, total, upcoming_add, later_add]
    refine ⟨?_, wave⟩
    rw [← samples, written, List.zipWith_cons_cons, List.flatten_cons]
    congr 1
    simp

/-- Even lengths cover as many samples as their sum. -/
theorem totalCount_eq (calls : List (Int × List Int))
    (even : ∀ call ∈ calls, 0 ≤ call.1 ∧ call.1 % 2 = 0) :
    totalCount calls = sampleCount (calls.map Prod.fst).sum ∧ 0 ≤ (calls.map Prod.fst).sum := by
  induction calls with
  | nil => exact ⟨rfl, Int.le_refl 0⟩
  | cons call calls ih =>
    obtain ⟨total, above⟩ := ih fun call mem => even call (List.mem_cons_of_mem _ mem)
    obtain ⟨positive, pairs⟩ := even call (List.mem_cons_self ..)
    rw [totalCount, List.map_cons, List.sum_cons, List.map_cons, List.sum_cons]
    rw [totalCount] at total
    rw [total, sampleCount_eq, sampleCount_eq, sampleCount_eq]
    omega

end SquareWave

open SquareWave in
/-- A tone does not depend on the buffers that it is written into.  A call that a length in bytes is
given to writes half as many samples, rounded down and none if the length is negative, each of them
`3000` or `-3000`, and which they are does not depend on what the buffer held; the rest of the buffer
stays, and the step of the wave always stays.  Calls with even lengths, one after another, write the
samples that one call with the sum of the lengths writes, and leave the wave at the same phase.
Buffers have room for the lengths that come with them. -/
theorem tone_continues_across_buffers (w : SquareWave) :
    (∀ length : Int,
      ∃ samples : List Int,
        samples.length = (max length 0).toNat / 2 ∧ (∀ s ∈ samples, s = 3000 ∨ s = -3000) ∧
        ∀ buffer : List Int, samples.length ≤ buffer.length →
          (w.fill length buffer).1 = samples ++ buffer.drop samples.length ∧
            (w.fill length buffer).2.step = w.step) ∧
    ∀ (calls : List (Int × List Int)) (buffer : List Int),
      let total := (calls.map Prod.fst).sum
      (∀ call ∈ calls, 0 ≤ call.1 ∧ call.1 % 2 = 0 ∧ call.1 ≤ 2 * call.2.length) →
      total ≤ 2 * buffer.length →
      written calls (w.fillEach calls).1 = (w.fill total buffer).1.take (total / 2).toNat ∧
        (w.fillEach calls).2 = (w.fill total buffer).2 := by
  refine ⟨?_, ?_⟩
  · intro length
    refine ⟨w.upcoming (sampleCount length), ?_, fun s mem => w.level_of_mem_upcoming _ mem, ?_⟩
    · rw [length_upcoming, sampleCount_eq]
    · intro buffer room
      rw [length_upcoming] at room ⊢
      rw [fill_eq w length room]
      exact ⟨rfl, w.step_later _⟩
  · intro calls buffer total lengths room
    obtain ⟨sameCount, above⟩ :=
      totalCount_eq calls fun call mem => ⟨(lengths call mem).1, (lengths call mem).2.1⟩
    have half : sampleCount total = (total / 2).toNat := by
      rw [sampleCount_eq]
      omega
    have rooms : ∀ call ∈ calls, sampleCount call.1 ≤ call.2.length := by
      intro call mem
      have := (lengths call mem).2.2
      rw [sampleCount_eq]
      omega
    obtain ⟨samples, wave⟩ := fillEach_eq w calls rooms
    rw [samples, wave, sameCount, fill_eq w total (by omega), ← half]
    simp [total]

open SquareWave in
/-- A buffer of three samples that an odd length covers in part; and three buffers, an empty one
among them and the last one too large, beside one buffer for all of their samples. -/
theorem tone_continues_across_buffers_empty_one_between :
    (∃ samples : List Int, samples.length = 2 ∧ samples.length ≤ [1, 1, 1].length ∧
      (initial.fill 5 [1, 1, 1]).1 = samples ++ [1]) ∧
    let calls : List (Int × List Int) := [(4, [1, 1]), (0, []), (6, [1, 1, 1, 1])]
    let large : List Int := [1, 1, 1, 1, 1]
    (∀ call ∈ calls, 0 ≤ call.1 ∧ call.1 % 2 = 0 ∧ call.1 ≤ 2 * call.2.length) ∧
      10 ≤ 2 * large.length ∧
      written calls (initial.fillEach calls).1 = (initial.fill 10 large).1.take 5 ∧
      (initial.fillEach calls).2 = (initial.fill 10 large).2 := by
  refine ⟨?_, ?_⟩
  · obtain ⟨samples, two, -, fills⟩ := (tone_continues_across_buffers initial).1 5
    have count : samples.length = 2 := two
    have room : samples.length ≤ [1, 1, 1].length := by simp [count]
    have filled := (fills [1, 1, 1] room).1
    rw [count] at filled
    exact ⟨samples, count, room, filled⟩
  · intro calls large
    have lengths : ∀ call ∈ calls, 0 ≤ call.1 ∧ call.1 % 2 = 0 ∧ call.1 ≤ 2 * call.2.length := by
      decide
    have room : 10 ≤ 2 * large.length := by decide
    have same := (tone_continues_across_buffers initial).2 calls large lengths (by decide)
    exact ⟨lengths, room, same⟩

end Chip8
