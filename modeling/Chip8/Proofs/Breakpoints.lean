import Chip8.Proofs.Faults
import Chip8.Proofs.Sessions
import Mathlib.Order.Bounds.Defs

namespace Chip8

/-!
# Runs under breakpoints

A run takes single steps until enough are done, the machine has halted, or a step has led to a
breakpoint.  Where it stops is told beforehand by the machines that single steps lead to.

* `Machine.times`, `Machine.lastFault?` — an operation done a number of times, and what it reports
  the last time.
* `Breakpoints.Meets` — the program counter is at a breakpoint; `Breakpoints.mem_insert` says which
  breakpoints there are after one was set.
* `countedSteps` — a run, and the number of steps that it takes.
* `StepsEnd`, `stepsEnd_countedSteps` — where a run stops, and why; `StepsEnd.report` says what is
  written about it.
* `Session.mem_breakpoints_perform` — which breakpoints there are after the command for a new one.
* `run_honours_breakpoints` — what the command for such a run does.
-/

/-! ### The same operation again and again -/

namespace Machine

variable {m : Machine}

/-- The machine after an operation was done a number of times. -/
def times (m : Machine) (o : Operation) (count : Nat) : Machine :=
  m.after (List.replicate count o)

/-- The fault that an operation reports the last time, when it is done a number of times. -/
def lastFault? (m : Machine) (o : Operation) : Nat → Option Fault
  | 0 => none
  | count + 1 => (o.perform (m.times o count)).fault?

@[simp] theorem times_zero (m : Machine) (o : Operation) : m.times o 0 = m := rfl

/-- The first time comes before the others. -/
theorem times_succ (m : Machine) (o : Operation) (count : Nat) :
    m.times o (count + 1) = (o.perform m).machine.times o count := rfl

/-- What is reported the last time does not hang on where the first one led, but if it is the only
one. -/
theorem lastFault?_succ {o : Operation} (calm : (o.perform m).fault? = none) (count : Nat) :
    m.lastFault? o (count + 1) = (o.perform m).machine.lastFault? o count := by
  cases count with
  | zero => exact calm
  | succ count => rfl

/-- A machine that has halted stays as it is, however often it is made to go on. -/
theorem times_of_halted (halted : m.isHalted = true) {o : Operation} (runs : o.isRun = true)
    (count : Nat) : m.times o count = m := by
  obtain ⟨fault, halted⟩ := m.isHalted_iff.mp halted
  refine after_of_halted halted fun p mem => ?_
  rwa [List.eq_of_mem_replicate mem]

/-- The machine after an operation was done more often is the one after some of the times, and then
the others. -/
theorem times_add (m : Machine) (o : Operation) (first second : Nat) :
    m.times o (first + second) = (m.times o first).times o second := by
  rw [times, ← List.replicate_append_replicate, after_append]
  rfl

/-- A step leaves a machine that has halted just if it reports a fault. -/
theorem isHalted_step (m : Machine) : m.step.machine.isHalted = m.step.fault?.isSome := by
  have case := m.step_cases
  generalize m.step = o at case ⊢
  cases case with
  | refused => rfl
  | executed running =>
    have activity := activity_execute m (decode (m.fetch m.pc))
    rw [running] at activity
    simp only [isHalted, activity_complete, activity]
    split <;> rfl
  | resumed | parked => rfl
  | stuck halted => simp [isHalted, halted, Activity.phase]

end Machine

/-! ### Breakpoints -/

namespace Breakpoints

/-- The program counter of a machine is at a breakpoint. -/
def Meets (b : Breakpoints) (m : Machine) : Prop := ∃ a ∈ b, a.toWord = m.pc

theorem stopAt_iff (b : Breakpoints) (m : Machine) : b.stopAt m.pc = true ↔ b.Meets m := by
  simp [stopAt, Meets]

instance (b : Breakpoints) (m : Machine) : Decidable (b.Meets m) :=
  decidable_of_iff _ (b.stopAt_iff m)

/-- A new breakpoint comes to those that there are. -/
theorem mem_insert (b : Breakpoints) (address a : Address) :
    a ∈ b.insert address ↔ a ∈ b ∨ a = address := by
  induction b with
  | nil => simp [insert]
  | cons first rest ih =>
    unfold insert
    split
    · rw [List.mem_cons, or_comm]
    · split
      · next same =>
        rw [same]
        constructor
        · exact Or.inl
        · rintro (mem | rfl)
          · exact mem
          · exact List.mem_cons_self
      · rw [List.mem_cons, ih, List.mem_cons, or_assoc]

/-- Without breakpoints, none is met. -/
theorem not_meets_nil (m : Machine) : ¬ Meets [] m := by
  simp [Meets]

end Breakpoints

/-! ### Where a run stops -/

section Steps

variable {breaks : Breakpoints} {count taken : Nat} {m : Machine} {r : Run}

/-- A run, and the number of steps that it takes. -/
def countedSteps (breaks : Breakpoints) : Nat → Machine → Run × Nat
  | 0, m => ({ machine := m }, 0)
  | count + 1, m =>
    if m.isHalted then ({ machine := m }, 0)
    else
      let o := m.step
      match o.fault? with
      | some fault => ({ machine := o.machine, stop := .fault fault, notices := o.notices }, 1)
      | none =>
        if count ≠ 0 ∧ breaks.stopAt o.machine.pc then
          ({ machine := o.machine, stop := .breakpoint }, 1)
        else
          let (r, taken) := countedSteps breaks count o.machine
          (r, taken + 1)

/-- Counting the steps of a run does not change it. -/
theorem fst_countedSteps (breaks : Breakpoints) (count : Nat) (m : Machine) :
    (countedSteps breaks count m).1 = runSteps breaks count m := by
  induction count generalizing m with
  | zero => rfl
  | succ count ih =>
    unfold countedSteps runSteps
    by_cases halted : m.isHalted = true
    · rw [if_pos halted, if_pos halted]
    · rw [if_neg halted, if_neg halted]
      dsimp only
      cases m.step.fault? with
      | some fault => rfl
      | none =>
        dsimp only
        split
        · rfl
        · exact ih m.step.machine

/-- After some single steps, a run of at most `count` steps has nothing more to do. -/
def RunOver (breaks : Breakpoints) (count : Nat) (m : Machine) (i : Nat) : Prop :=
  count ≤ i ∨ (m.times .step i).isHalted = true ∨ 1 ≤ i ∧ breaks.Meets (m.times .step i)

/-- A run of at most `count` steps takes some number of them, and leaves something behind. -/
structure StepsEnd (breaks : Breakpoints) (count : Nat) (m : Machine) (taken : Nat) (r : Run) :
    Prop where
  /-- It stops as soon as it has nothing more to do. -/
  least : IsLeast {i | RunOver breaks count m i} taken
  /-- It leaves the machine that its steps lead to. -/
  machine : r.machine = m.times .step taken
  /-- A breakpoint has stopped it if there were steps left to take and the machine has not
  halted. -/
  breakpoint : r.stop = .breakpoint ↔ taken < count ∧ (m.times .step taken).isHalted = false
  /-- A fault has stopped it if its last step reported that fault. -/
  fault : ∀ fault, r.stop = .fault fault ↔ m.lastFault? .step taken = some fault

/-- A run that has nothing to do takes no steps. -/
theorem stepsEnd_zero (ended : RunOver breaks count m 0) :
    StepsEnd breaks count m 0 { machine := m } where
  least := ⟨ended, fun i _ => Nat.zero_le i⟩
  machine := rfl
  breakpoint := by
    have none : ¬ (0 < count ∧ m.isHalted = false) := by
      rintro ⟨left, going⟩
      rcases ended with enough | halted | ⟨none, -⟩
      · omega
      · rw [Machine.times_zero, going] at halted
        cases halted
      · omega
    simpa using none
  fault fault := by simp [Machine.lastFault?]

/-- A run that has something to do is not over before its first step. -/
theorem not_runOver_zero (going : m.isHalted = false) : ¬ RunOver breaks (count + 1) m 0 := by
  rintro (enough | halted | ⟨none, -⟩)
  · omega
  · rw [Machine.times_zero, going] at halted
    cases halted
  · omega

/-- A run may stop after its first step. -/
theorem least_one (going : m.isHalted = false) (ended : RunOver breaks (count + 1) m 1) :
    IsLeast {i | RunOver breaks (count + 1) m i} 1 := by
  refine ⟨ended, fun i later => ?_⟩
  cases i with
  | zero => exact absurd later (not_runOver_zero going)
  | succ i => exact Nat.succ_le_succ (Nat.zero_le i)

/-- A run that goes on after its first step goes on as one of the steps that are left. -/
theorem StepsEnd.succ (going : m.isHalted = false) (calm : m.step.fault? = none)
    (onward : ¬ (count ≠ 0 ∧ breaks.Meets m.step.machine))
    (rest : StepsEnd breaks count m.step.machine taken r) :
    StepsEnd breaks (count + 1) m (taken + 1) r where
  least := by
    obtain ⟨ended, first⟩ := rest.least
    constructor
    · rcases ended with enough | halted | ⟨-, meets⟩
      · exact .inl (Nat.succ_le_succ enough)
      · exact .inr (.inl halted)
      · exact .inr (.inr ⟨Nat.succ_le_succ (Nat.zero_le taken), meets⟩)
    · intro i ended
      cases i with
      | zero => exact absurd ended (not_runOver_zero going)
      | succ i =>
        apply Nat.succ_le_succ
        apply first
        rcases ended with enough | halted | ⟨-, meets⟩
        · exact .inl (Nat.le_of_succ_le_succ enough)
        · exact .inr (.inl halted)
        · cases i with
          | zero =>
            -- a breakpoint right after the first step was passed over, so it was the last step
            by_cases last : count = 0
            · exact .inl (Nat.le_of_eq last)
            · exact absurd ⟨last, meets⟩ onward
          | succ i => exact .inr (.inr ⟨Nat.succ_le_succ (Nat.zero_le i), meets⟩)
  machine := rest.machine
  breakpoint := by
    rw [rest.breakpoint, Nat.add_lt_add_iff_right]
    rfl
  fault fault := by
    have first : (Operation.step.perform m).fault? = none := calm
    rw [rest.fault, Machine.lastFault?_succ first]
    rfl

/-- Every run ends in this way. -/
theorem stepsEnd_countedSteps (breaks : Breakpoints) (count : Nat) (m : Machine) :
    StepsEnd breaks count m (countedSteps breaks count m).2 (countedSteps breaks count m).1 := by
  induction count generalizing m with
  | zero => exact stepsEnd_zero (.inl (Nat.le_refl 0))
  | succ count ih =>
    unfold countedSteps
    dsimp only
    split
    · next halted => exact stepsEnd_zero (.inr (.inl halted))
    · next going =>
      rw [Bool.not_eq_true] at going
      split
      · next fault reports =>
        -- a fault halts the machine, so there is no other step and no line about a breakpoint
        have halted : m.step.machine.isHalted = true := by rw [m.isHalted_step, reports]; rfl
        refine ⟨least_one going (.inr (.inl halted)), rfl, ?_, ?_⟩
        · show Stop.fault fault = .breakpoint ↔ 1 < count + 1 ∧ m.step.machine.isHalted = false
          simp [halted]
        · intro fault'
          show Stop.fault fault = .fault fault' ↔ m.step.fault? = some fault'
          rw [reports, Stop.fault.injEq, Option.some.injEq]
      · next calm =>
        split
        · next stops =>
          obtain ⟨left, stops⟩ := stops
          have meets := (breaks.stopAt_iff m.step.machine).mp stops
          have goes : m.step.machine.isHalted = false := by rw [m.isHalted_step, calm]; rfl
          have ended : RunOver breaks (count + 1) m 1 := .inr (.inr ⟨Nat.le_refl 1, meets⟩)
          refine ⟨least_one going ended, rfl, ?_, ?_⟩
          · show Stop.breakpoint = .breakpoint ↔ 1 < count + 1 ∧ m.step.machine.isHalted = false
            simp [goes, Nat.pos_of_ne_zero left]
          · intro fault
            show Stop.breakpoint = .fault fault ↔ m.step.fault? = some fault
            simp [calm]
        · next onward =>
          rw [breaks.stopAt_iff] at onward
          exact (ih m.step.machine).succ going calm onward

/-- A run takes no more steps than it may. -/
theorem StepsEnd.taken_le (h : StepsEnd breaks count m taken r) : taken ≤ count :=
  h.least.2 (.inl (Nat.le_refl count))

/-- Between its steps a run meets no breakpoint. -/
theorem StepsEnd.not_meets (h : StepsEnd breaks count m taken r) {i : Nat} (begun : 1 ≤ i)
    (before : i < taken) : ¬ breaks.Meets (m.times .step i) := by
  intro meets
  exact Nat.not_le_of_gt before (h.least.2 (.inr (.inr ⟨begun, meets⟩)))

/-- Without breakpoints, a run leads where all of its steps would. -/
theorem StepsEnd.times_eq (h : StepsEnd [] count m taken r) :
    m.times .step taken = m.times .step count := by
  rcases h.least.1 with enough | halted | ⟨-, meets⟩
  · rw [Nat.le_antisymm h.taken_le enough]
  · -- the steps that were left would have changed nothing
    obtain ⟨left, rfl⟩ := Nat.exists_eq_add_of_le h.taken_le
    rw [Machine.times_add, Machine.times_of_halted halted rfl]
  · exact absurd meets (Breakpoints.not_meets_nil _)

/-! ### What is written about a run -/

/-- The line about a fault that may have stopped a run. -/
def faultLine : Option Fault → String
  | some fault => asLine ("* Fault: " ++ fault.text)
  | none => ""

/-- What is written about a run follows from how it ended. -/
theorem StepsEnd.report (h : StepsEnd breaks count m taken r) :
    r.report =
      (if taken < count ∧ (m.times .step taken).isHalted = false then
        asLine ("* break at " ++ hexWord (m.times .step taken).pc)
      else "") ++ faultLine (m.lastFault? .step taken) := by
  have unfaulted (other : ∀ fault, r.stop ≠ .fault fault) : m.lastFault? .step taken = none := by
    rw [Option.eq_none_iff_forall_ne_some]
    intro fault reports
    exact other fault ((h.fault fault).mpr reports)
  have passed (other : r.stop ≠ .breakpoint) :
      ¬ (taken < count ∧ (m.times .step taken).isHalted = false) :=
    mt h.breakpoint.mpr other
  unfold Run.report
  rw [h.machine]
  cases stop : r.stop with
  | finished =>
    rw [if_neg (passed (by simp [stop])), unfaulted (by simp [stop])]
    rfl
  | fault fault =>
    rw [if_neg (passed (by simp [stop])), (h.fault fault).mp stop]
    rfl
  | breakpoint =>
    rw [if_pos (h.breakpoint.mp stop), unfaulted (by simp [stop])]
    simp [faultLine]

end Steps

/-! ### Commands -/

namespace Session

/-- The command for a run takes its steps and reports where it stopped. -/
theorem perform_run (files : Files) (s : Session) (operands : List (List Char)) :
    s.perform files (.ofWords "r" operands) =
      s.afterRun (runSteps s.breakpoints (Command.numberOr operands.head? 1).toNat s.machine)
        s.clock := rfl

/-- Single steps, one command after another. -/
theorem machine_attend_steps (files : Files) (s : Session) (count : Nat) :
    (s.attend (List.replicate count ⟨files, "s".toList⟩)).machine =
      s.machine.times .step count := by
  induction count generalizing s with
  | zero => rfl
  | succ count ih =>
    have command : (TypedLine.mk files "s".toList).command = .step := by
      show Command.ofLine "s".toList = .step
      decide
    have stays : (TypedLine.mk files "s".toList).command ≠ .quit := by
      rw [command]
      simp
    have first : (s.perform files .step).1.machine = s.machine.step.machine := by
      show (singleStep s.machine).machine = s.machine.step.machine
      unfold singleStep
      dsimp only
      split <;> rfl
    rw [List.replicate_succ, attend_cons s stays, ih, command, first]
    rfl

/-- An operand stands for an address just if it begins with a number of base sixteen and of at most
64 bits, which then is taken modulo the size of the memory. -/
theorem foldedAddress?_eq_some_iff {word : List Char} {a : Address} :
    foldedAddress? word = some a ↔
      ∃ n, Numeral.read? .hexadecimal word = some n ∧ n.magnitude < 0x10000000000000000 ∧
        (a.val : Int) = n.value % 4096 := by
  unfold foldedAddress?
  cases Numeral.read? .hexadecimal word with
  | none => simp
  | some n =>
    have folded : (Address.wrap (n.value % 4096).toNat).val = (n.value % 4096).toNat :=
      Nat.mod_eq_of_lt (by omega)
    dsimp only
    split
    · next small =>
      constructor
      · intro same
        cases same
        refine ⟨n, rfl, small, ?_⟩
        rw [folded]
        omega
      · rintro ⟨n', same, -, value⟩
        cases same
        congr 1
        apply Fin.ext
        rw [folded]
        omega
    · next large =>
      constructor
      · intro none
        cases none
      · rintro ⟨n', same, small, -⟩
        cases same
        exact absurd small large

/-- The command for a new breakpoint sets it at the address that its operand stands for. -/
theorem mem_breakpoints_perform (files : Files) (s : Session) (operands : List (List Char))
    (a : Address) :
    a ∈ (s.perform files (.ofWords "b" operands)).1.breakpoints ↔
      a ∈ s.breakpoints ∨ ∃ word, operands.head? = some word ∧ foldedAddress? word = some a := by
  show a ∈ (s.perform files (Command.setBreakOf operands)).1.breakpoints ↔ _
  cases operands with
  | nil => simp [Command.setBreakOf, perform]
  | cons word rest =>
    rw [Command.setBreakOf, Command.onAddress]
    cases folded : foldedAddress? word with
    | none => simp [perform, folded]
    | some address =>
      show a ∈ s.breakpoints.insert address ↔ _
      rw [Breakpoints.mem_insert]
      simp [folded, eq_comm]

end Session

/-- A run honours breakpoints exactly.  In any session, with a machine that runs, waits or has
halted and with any breakpoints, a run of any number of steps takes exactly as many as it must to be
over: until enough are done, the machine has halted, or at least one step has been taken and the
program counter is at a breakpoint.  It leaves the machine that these steps lead to and nothing else
changed, and it writes a line about a breakpoint just if it could have gone on otherwise, and a line
about a fault just if its last step reported one.  So no instruction at a breakpoint is executed but
perhaps the first, a run of at least one step gets on unless the machine has halted, and without
breakpoints a run is as many single steps.  Breakpoints lie in memory, whatever is asked for: an
operand stands for the number that it begins with, modulo the size of the memory, or for none. -/
theorem run_honours_breakpoints (files : Files) (s : Session) (operands : List (List Char)) :
    let count := Command.numberOr operands.head? 1
    let stepped := s.machine.times .step
    let after := (s.perform files (.ofWords "r" operands)).1
    (∃ k : Nat,
      IsLeast {i : Nat | count ≤ i ∨ (stepped i).isHalted = true ∨
        1 ≤ i ∧ s.breakpoints.Meets (stepped i)} k ∧
      countedSteps s.breakpoints count.toNat s.machine =
        (runSteps s.breakpoints count.toNat s.machine, k) ∧
      after = { s with machine := stepped k } ∧
      (s.perform files (.ofWords "r" operands)).2.out =
        (if k < count ∧ (stepped k).isHalted = false then
          asLine ("* break at " ++ hexWord (stepped k).pc)
        else "") ++ faultLine (s.machine.lastFault? .step k) ++ registersReport (stepped k) ∧
      (∀ i, 1 ≤ i → i < k → ¬ s.breakpoints.Meets (stepped i)) ∧
      (1 ≤ count → s.machine.isHalted = false → 1 ≤ k)) ∧
    (s.breakpoints = [] → after.machine =
      (s.attend (List.replicate count.toNat ⟨files, "s".toList⟩)).machine) ∧
    ∀ operands' a,
      (a ∈ (s.perform files (.ofWords "b" operands')).1.breakpoints ↔
        a ∈ s.breakpoints ∨ ∃ word n, operands'.head? = some word ∧
          Numeral.read? .hexadecimal word = some n ∧ n.magnitude < 0x10000000000000000 ∧
          (a.val : Int) = n.value % 4096) ∧
      (a ∈ (s.perform files (.ofWords "b" operands')).1.breakpoints → a.toWord.toNat ≤ 0xFFF) := by
  intro count stepped after
  have ends := stepsEnd_countedSteps s.breakpoints count.toNat s.machine
  have run := fst_countedSteps s.breakpoints count.toNat s.machine
  rcases counted : countedSteps s.breakpoints count.toNat s.machine with ⟨r, k⟩
  rw [counted] at ends run
  dsimp only at ends run
  have performed := s.perform_run files operands
  rw [← run] at performed
  have left : after = { s with machine := stepped k } := by
    show (s.perform files (.ofWords "r" operands)).1 = _
    rw [performed, Session.afterRun, ends.machine]
  have reached : after.machine = stepped k := by rw [left]
  refine ⟨⟨k, ?_, by rw [run], left, ?_, fun i => ends.not_meets, ?_⟩, ?_, ?_⟩
  · have same : {i : Nat | count ≤ i ∨ (stepped i).isHalted = true ∨
        1 ≤ i ∧ s.breakpoints.Meets (stepped i)} =
        {i | RunOver s.breakpoints count.toNat s.machine i} := by
      ext i
      show (count ≤ i ∨ _) ↔ (count.toNat ≤ i ∨ _)
      rw [Int.toNat_le]
    rw [same]
    exact ends.least
  · have before : (k : Int) < count ↔ k < count.toNat := by omega
    rw [performed, Session.afterRun, ends.report, ends.machine]
    simp only [before]
    rfl
  · -- a breakpoint counts from the first step on only, so nothing can stop the run before it
    intro some going
    refine Nat.pos_of_ne_zero fun none => ?_
    rcases ends.least.1 with enough | halted | ⟨begun, -⟩
    · omega
    · rw [none, Machine.times_zero, going] at halted
      cases halted
    · omega
  · intro free
    rw [free] at ends
    rw [reached, Session.machine_attend_steps]
    exact ends.times_eq
  · intro operands' a
    refine ⟨?_, ?_⟩
    · rw [Session.mem_breakpoints_perform]
      simp only [Session.foldedAddress?_eq_some_iff]
      simp
    · intro _
      have inside := a.isLt
      rw [Address.toNat_toWord]
      omega

/-- A loop of two instructions with a breakpoint at the first one, from where the run starts: it
takes both instructions and stops there.  Without the breakpoint the run takes as many steps as it
may.  A breakpoint at an address of five digits is set at the last three of them. -/
theorem run_honours_breakpoints_in_loop :
    let files : Files := fun _ => none
    let loop : List UInt8 := [0x70, 0x01, 0x12, 0x00]
    let loaded := (Machine.powerOn {} Machine.defaultTraceLimit default).load loop
    let s : Session := { machine := loaded.machine, rom := loop, breakpoints := [0x200] }
    let free : Session := { s with breakpoints := [] }
    let nine : List (List Char) := ["9".toList]
    (s.perform files (.ofWords "r" nine)).1 = { s with machine := s.machine.times .step 2 } ∧
      (s.perform files (.ofWords "r" nine)).2.out =
        asLine "* break at 0200" ++ "" ++ registersReport (s.machine.times .step 2) ∧
      (free.perform files (.ofWords "r" nine)).1.machine =
        (free.attend (List.replicate 9 ⟨files, "s".toList⟩)).machine ∧
      0x345 ∈ (s.perform files (.ofWords "b" ["12345".toList])).1.breakpoints := by
  intro files loop loaded s free nine
  have operand : Command.numberOr nine.head? 1 = 9 := by decide +kernel
  have taken : (countedSteps s.breakpoints 9 s.machine).2 = 2 := by decide +kernel
  have going : (s.machine.times .step 2).isHalted = false := by decide +kernel
  have calm : s.machine.lastFault? .step 2 = none := by decide +kernel
  have pc : (s.machine.times .step 2).pc = 0x200 := by decide +kernel
  have address : Numeral.read? .hexadecimal "12345".toList = some ⟨false, 0x12345, []⟩ := by
    decide +kernel
  obtain ⟨⟨k, -, counted, after, out, -⟩, -, set⟩ := run_honours_breakpoints files s nine
  obtain ⟨-, steps, -⟩ := run_honours_breakpoints files free nine
  rw [operand] at counted out steps
  have two : k = 2 := by
    rw [← taken, show (9 : Nat) = (9 : Int).toNat from rfl, counted]
  subst two
  rw [calm, going, pc] at out
  refine ⟨after, out, steps rfl, ((set _ _).1).mpr (.inr ⟨_, _, rfl, address, ?_, ?_⟩)⟩
  · decide
  · decide

end Chip8
