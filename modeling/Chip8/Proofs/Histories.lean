import Chip8.Machine.Operation

namespace Chip8

/-!
# Histories step by step

A frame takes a number of steps, though it may stop early.  A trail lists the machines that
a run passes through, each of them just before it takes a step, so that something can be
said of every single step of a history.

* `Machine.trail`, `Operation.trail`, `Machine.historyTrail` — the trail of some steps, of
  an operation and of a history.
* `Machine.outcomes` — what the operations of a history leave behind, one after the other.
* `Machine.eq_after_of_getElem?_trail`, `Machine.machine_steps_eq_after` — a trail lists the
  machines that single steps lead to, as many as steps are taken.
* `Machine.steps_of_trail_eq_append` — steps go on from every machine of their trail.
* `Carried` — a property that goes along a trail while its machines are good.
* `Machine.carried_historyTrail` — a property that good steps keep, and that nothing between
  the steps destroys, is carried along every history without a restart.
* `Machine.Invariant.of_reachable` — what holds of fresh machines and is kept by steps and
  between them holds of every machine that can be reached.
* `Machine.faultless_history` — where steps keep a property and report no fault, neither does a
  history that leaves memory to the program.
* `Machine.Passage`, `Machine.passage_history` — a history as single steps with small changes
  between them, for what is to be told of all its steps together.
-/

/-! ### Operations that start afresh -/

/-- Whether an operation brings the machine back to power-on; a program that is too large
does not. -/
def Operation.Restarts : Operation → Prop
  | reset => True
  | load program => program.length ≤ programCapacity
  | _ => False

instance : DecidablePred Operation.Restarts
  | .reset => inferInstanceAs (Decidable True)
  | .load program => inferInstanceAs (Decidable (program.length ≤ programCapacity))
  | .key _ _ | .step | .frame _ | .countDown => inferInstanceAs (Decidable False)
  | .setDialect _ | .setTraceLimit _ | .poke _ _ => inferInstanceAs (Decidable False)

/-- Whether an operation leaves memory to the program: it loads none, and puts nothing there from
outside. -/
def Operation.leavesMemory : Operation → Bool
  | reset | load _ | poke _ _ => false
  | _ => true

namespace Machine

/-- A program that is too large changes nothing. -/
theorem machine_load_of_not_restarts {m : Machine} {program : List UInt8}
    (h : ¬ (Operation.load program).Restarts) : (m.load program).machine = m := by
  have large : ¬ program.length ≤ programCapacity := h
  simp only [load, large, if_false]

/-- A restart leaves a fresh machine that is set up as before, whatever lies in its memory. -/
theorem exists_memory_of_restarts {o : Operation} (h : o.Restarts) (m : Machine) :
    ∃ memory, (o.perform m).machine =
      { powerOn m.dialect m.traceLimit m.random with memory := memory } := by
  cases o with
  | reset => exact ⟨Memory.initial, rfl⟩
  | load program =>
    have fits : program.length ≤ programCapacity := h
    refine ⟨Memory.initial.writeFrom programStart program, ?_⟩
    simp only [Operation.perform, load, fits, if_true]
    rfl
  | _ => exact absurd h id

/-! ### Trails -/

/-- The machines before each of the steps that `steps` takes. -/
def trail : Nat → Machine → List Machine
  | 0, _ => []
  | count + 1, m =>
    let o := m.step
    m :: if o.fault?.isSome || o.machine.isWaiting then [] else trail count o.machine

end Machine

/-- The machines before each of the steps that an operation takes. -/
def Operation.trail (o : Operation) (m : Machine) : List Machine :=
  match o with
  | step => [m]
  | frame steps => if m.isHalted then [] else Machine.trail steps m
  | _ => []

/-- The machines before each of the steps that a history takes. -/
def Machine.historyTrail (m : Machine) : List Operation → List Machine
  | [] => []
  | o :: history => o.trail m ++ (o.perform m).machine.historyTrail history

/-- What the operations of a history leave behind, one after the other. -/
def Machine.outcomes (m : Machine) : List Operation → List Outcome
  | [] => []
  | o :: history => o.perform m :: (o.perform m).machine.outcomes history

/-! ### Properties along a trail -/

/-- A property holds at each machine of a trail, and at the machine in which the trail ends,
as long as all machines before it are good. -/
def Carried (P good : Machine → Prop) : List Machine → Machine → Prop
  | [], last => P last
  | m :: rest, last => P m ∧ (good m → Carried P good rest last)

namespace Carried

variable {P good : Machine → Prop} {trail trail' : List Machine} {last last' : Machine}

/-- A trail may be followed by another one. -/
theorem append (h : Carried P good trail last) (h' : P last → Carried P good trail' last') :
    Carried P good (trail ++ trail') last' := by
  induction trail with
  | nil => exact h' h
  | cons m rest ih =>
    obtain ⟨here, onward⟩ := h
    exact ⟨here, fun g => ih (onward g)⟩

/-- The end of a trail may move to another machine that keeps the property. -/
theorem move (h : Carried P good trail last) (h' : P last → P last') :
    Carried P good trail last' := by
  rw [← List.append_nil trail]
  exact h.append h'

/-- The property holds at a machine that only good machines precede. -/
theorem of_mem {body rest : List Machine} {m : Machine}
    (h : Carried P good (body ++ m :: rest) last) (before : ∀ b ∈ body, good b) : P m := by
  induction body with
  | nil => exact h.1
  | cons b body ih =>
    have next := h.2 (before b (by simp))
    exact ih next fun b' mem => before b' (by simp [mem])

/-- The property holds at the end of a trail of good machines. -/
theorem of_last (h : Carried P good trail last) (all : ∀ m ∈ trail, good m) : P last := by
  induction trail with
  | nil => exact h
  | cons m rest ih => exact ih (h.2 (all m (by simp))) fun m' mem => all m' (by simp [mem])

end Carried

namespace Machine

/-- A property that nothing between two steps destroys. -/
structure KeptBetweenSteps (allowed : Operation → Prop) (P : Machine → Prop) : Prop where
  /-- The timers go down. -/
  countDown : ∀ {m : Machine}, P m → P m.countDown
  /-- A frame is counted. -/
  frames : ∀ {m : Machine} (count : Nat), P m → P { m with frames := count }
  /-- Keys are pressed or released. -/
  keys : ∀ {m : Machine} (keys : Keypad), P m → P { m with keys := keys }
  /-- Disputed instructions are read in another way. -/
  dialect : ∀ {m : Machine} (dialect : Dialect), P m → P { m with dialect := dialect }
  /-- The timeline is to keep another number of instructions. -/
  traceLimit : ∀ {m : Machine} (limit : Nat), P m → P { m with traceLimit := limit }
  /-- A byte is put into memory, where that is allowed. -/
  poke : ∀ {m : Machine} (address : Address) (value : UInt8),
    allowed (.poke address value) → P m → P (m.poke address value)

/-- A property of fresh machines that nothing done to a machine destroys. -/
structure Invariant (allowed : Operation → Prop) (P : Machine → Prop) : Prop
    extends KeptBetweenSteps allowed P where
  /-- It holds of a machine just powered on, whatever lies in its memory. -/
  fresh : ∀ (dialect : Dialect) (limit : Nat) (random : RandomSource) (memory : Memory),
    P { powerOn dialect limit random with memory := memory }
  /-- A step keeps it. -/
  step : ∀ {m : Machine}, P m → P m.step.machine

/-! ### Frames and their steps -/

/-- A machine that has halted has done so by a fault. -/
theorem isHalted_iff (m : Machine) : m.isHalted = true ↔ ∃ fault, m.activity = .halted fault := by
  cases activity : m.activity <;> simp [isHalted, activity, Activity.phase]

/-- A machine that has not halted has no fault. -/
theorem isHalted_eq_false_iff (m : Machine) :
    m.isHalted = false ↔ ∀ fault, m.activity ≠ .halted fault := by
  cases activity : m.activity <;> simp [isHalted, activity, Activity.phase]

theorem isHalted_of_running {m : Machine} (h : m.activity = .running) : m.isHalted = false := by
  simp [isHalted, h, Activity.phase]

theorem isWaiting_of_running {m : Machine} (h : m.activity = .running) : m.isWaiting = false := by
  simp [isWaiting, h, Activity.phase]

/-- A frame of a machine that has not halted ends after its steps if one reports a fault,
and otherwise counts the timers down and itself. -/
theorem runFrame_of_not_halted {m : Machine} (h : m.isHalted = false) (count : Nat) :
    m.runFrame count =
      match (steps count m).fault? with
      | some _ => steps count m
      | none =>
        { steps count m with
          machine :=
            { (steps count m).machine.countDown with
              frames := (steps count m).machine.countDown.frames + 1 } } := by
  rw [isHalted_eq_false_iff] at h
  unfold runFrame
  split
  · next fault activity => exact absurd activity (h fault)
  · rfl

/-- The first of some steps is the last one taken, or it leaves the machine going and the
others follow. -/
theorem steps_succ (count : Nat) (m : Machine) :
    (steps (count + 1) m = m.step ∧ trail (count + 1) m = [m]) ∨
      (m.step.fault? = none ∧ m.step.machine.isWaiting = false ∧
        steps (count + 1) m = steps count m.step.machine ∧
        trail (count + 1) m = m :: trail count m.step.machine) := by
  rw [steps, trail]
  cases calm : m.step.fault? with
  | some fault => exact Or.inl ⟨by simp, by simp⟩
  | none =>
    cases busy : m.step.machine.isWaiting with
    | true => exact Or.inl ⟨by simp, by simp⟩
    | false => exact Or.inr ⟨rfl, rfl, by simp, by simp⟩

/-- The trail of some steps lists the machines that single steps lead to, one after the
other. -/
theorem eq_after_of_getElem?_trail {count k : Nat} {m a : Machine}
    (h : (trail count m)[k]? = some a) : a = m.after (List.replicate k .step) := by
  induction count generalizing m k with
  | zero => cases h
  | succ count ih =>
    cases k with
    | zero => exact (Option.some.inj h).symm
    | succ k =>
      show a = m.step.machine.after (List.replicate k .step)
      rcases steps_succ count m with ⟨_, alone⟩ | ⟨_, _, _, rest⟩
      · rw [alone] at h
        cases h
      · rw [rest, List.getElem?_cons_succ] at h
        exact ih h

/-- Some steps are as many single steps as their trail is long. -/
theorem machine_steps_eq_after (count : Nat) (m : Machine) :
    (steps count m).machine = m.after (List.replicate (trail count m).length .step) := by
  induction count generalizing m with
  | zero => rfl
  | succ count ih =>
    rcases steps_succ count m with ⟨last, alone⟩ | ⟨_, _, onward, rest⟩
    · rw [last, alone]
      rfl
    · rw [onward, rest]
      exact ih m.step.machine

/-- From every machine of their trail, some steps go on with the steps that are left, and the
trail with what follows it. -/
theorem steps_of_trail_eq_append {count : Nat} {m b : Machine} {first rest : List Machine}
    (h : trail count m = first ++ b :: rest) :
    ∃ left, trail (left + 1) b = b :: rest ∧ steps count m = steps (left + 1) b := by
  induction count generalizing m first with
  | zero =>
    have none : [] = first ++ b :: rest := h
    simp at none
  | succ count ih =>
    cases first with
    | nil =>
      -- a trail begins with its machine
      have same : m = b := (List.cons.inj h).1
      subst same
      exact ⟨count, h, rfl⟩
    | cons a first =>
      rcases steps_succ count m with ⟨_, alone⟩ | ⟨_, _, onward, more⟩
      · rw [alone] at h
        have none : [] = first ++ b :: rest := (List.cons.inj h).2
        simp at none
      · rw [more] at h
        rw [onward]
        exact ih (List.cons.inj h).2

/-- What a history leaves behind is what its first part does, and then what the rest does from
there. -/
theorem outcomes_append (m : Machine) (first second : List Operation) :
    m.outcomes (first ++ second) = m.outcomes first ++ (m.after first).outcomes second := by
  induction first generalizing m with
  | nil => rfl
  | cons o first ih =>
    have rest := ih (o.perform m).machine
    simp only [outcomes, List.cons_append, after_cons, rest]

/-! ### Along steps, operations and histories -/

section Carried

variable {allowed : Operation → Prop} {P good : Machine → Prop}

/-- What good steps keep is carried along the trail of some steps. -/
theorem carried_trail (kept : ∀ {m : Machine}, P m → good m → P m.step.machine)
    (count : Nat) {m : Machine} (start : P m) :
    Carried P good (trail count m) (steps count m).machine := by
  induction count generalizing m with
  | zero => exact start
  | succ count ih =>
    rcases steps_succ count m with ⟨last, alone⟩ | ⟨_, _, onward, rest⟩
    · rw [last, alone]
      exact ⟨start, fun g => kept start g⟩
    · rw [onward, rest]
      exact ⟨start, fun g => ih (kept start g)⟩

/-- What good steps keep, and nothing between steps destroys, is carried along the trail of
an operation that does not restart the machine. -/
theorem carried_operationTrail (between : KeptBetweenSteps allowed P)
    (kept : ∀ {m : Machine}, P m → good m → P m.step.machine) {o : Operation}
    (ok : allowed o) (calm : ¬ o.Restarts) {m : Machine} (start : P m) :
    Carried P good (o.trail m) (o.perform m).machine := by
  cases o with
  | reset => exact absurd trivial calm
  | load program =>
    show P (m.load program).machine
    rwa [machine_load_of_not_restarts calm]
  | key number down => exact between.keys _ start
  | step => exact ⟨start, kept start⟩
  | frame count =>
    -- the property goes along the steps, and then through the end of the frame
    show Carried P good (if m.isHalted then [] else trail count m) (m.runFrame count).machine
    cases halted : m.isHalted with
    | true =>
      obtain ⟨fault, halted⟩ := m.isHalted_iff.mp halted
      rw [runFrame_of_halted halted]
      exact start
    | false =>
      refine (carried_trail kept count start).move fun last => ?_
      rw [runFrame_of_not_halted halted]
      split
      · exact last
      · exact between.frames _ (between.countDown last)
  | countDown => exact between.countDown start
  | setDialect dialect => exact between.dialect dialect start
  | setTraceLimit limit => exact between.traceLimit limit start
  | poke address value => exact between.poke address value ok start

/-- What good steps keep, and nothing between steps destroys, is carried along the trail of
a history without a restart. -/
theorem carried_historyTrail (between : KeptBetweenSteps allowed P)
    (kept : ∀ {m : Machine}, P m → good m → P m.step.machine) {history : List Operation}
    (ok : ∀ o ∈ history, allowed o) (calm : ∀ o ∈ history, ¬ o.Restarts) {m : Machine}
    (start : P m) : Carried P good (m.historyTrail history) (m.after history) := by
  induction history generalizing m with
  | nil => exact start
  | cons o history ih =>
    have first := carried_operationTrail between kept (ok o (by simp)) (calm o (by simp)) start
    refine first.append fun next => ?_
    exact ih (fun p mem => ok p (by simp [mem])) (fun p mem => calm p (by simp [mem])) next

end Carried

section Faultless

variable {P : Machine → Prop}

/-- Steps that keep a property and report no fault do so one after another. -/
theorem faultless_steps (kept : ∀ {m : Machine}, P m → m.step.fault? = none ∧ P m.step.machine)
    (count : Nat) {m : Machine} (start : P m) :
    (steps count m).fault? = none ∧ P (steps count m).machine := by
  induction count generalizing m with
  | zero => exact ⟨rfl, start⟩
  | succ count ih =>
    rcases steps_succ count m with ⟨last, _⟩ | ⟨_, _, onward, _⟩
    · rw [last]
      exact kept start
    · rw [onward]
      exact ih (kept start).2

/-- So do operations that leave memory to the program. -/
theorem faultless_operation (between : KeptBetweenSteps (·.leavesMemory = true) P)
    (kept : ∀ {m : Machine}, P m → m.step.fault? = none ∧ P m.step.machine) {o : Operation}
    (ok : o.leavesMemory = true) {m : Machine} (start : P m) :
    (o.perform m).fault? = none ∧ P (o.perform m).machine := by
  cases o with
  | reset | load | poke => cases ok
  | key number down => exact ⟨rfl, between.keys _ start⟩
  | step => exact kept start
  | frame count =>
    have going : m.isHalted = false := by
      -- a step of a machine that has halted reports the fault
      rw [isHalted_eq_false_iff]
      intro fault halted
      have calm := (kept start).1
      rw [step_of_halted halted] at calm
      cases calm
    have taken := faultless_steps kept count start
    show (m.runFrame count).fault? = none ∧ P (m.runFrame count).machine
    rw [runFrame_of_not_halted going, taken.1]
    exact ⟨taken.1, between.frames _ (between.countDown taken.2)⟩
  | countDown => exact ⟨rfl, between.countDown start⟩
  | setDialect dialect => exact ⟨rfl, between.dialect dialect start⟩
  | setTraceLimit limit => exact ⟨rfl, between.traceLimit limit start⟩

/-- And so do histories of such operations. -/
theorem faultless_history (between : KeptBetweenSteps (·.leavesMemory = true) P)
    (kept : ∀ {m : Machine}, P m → m.step.fault? = none ∧ P m.step.machine)
    {history : List Operation} (ok : ∀ o ∈ history, o.leavesMemory = true) {m : Machine}
    (start : P m) : (∀ o ∈ m.outcomes history, o.fault? = none) ∧ P (m.after history) := by
  induction history generalizing m with
  | nil => exact ⟨fun _ none => absurd none List.not_mem_nil, start⟩
  | cons o history ih =>
    obtain ⟨calm, next⟩ := faultless_operation between kept (ok o (by simp)) start
    obtain ⟨rest, last⟩ := ih (fun p mem => ok p (by simp [mem])) next
    refine ⟨?_, last⟩
    rw [outcomes, List.forall_mem_cons]
    exact ⟨calm, rest⟩

end Faultless

namespace Invariant

variable {allowed : Operation → Prop} {P : Machine → Prop}

/-- Every allowed operation keeps an invariant. -/
theorem perform (inv : Invariant allowed P) {o : Operation} (ok : allowed o) {m : Machine}
    (start : P m) : P (o.perform m).machine := by
  by_cases calm : o.Restarts
  · obtain ⟨memory, fresh⟩ := exists_memory_of_restarts calm m
    rw [fresh]
    exact inv.fresh m.dialect m.traceLimit m.random memory
  · -- without one, the invariant is carried along all steps of the operation
    have carried : Carried P (fun _ => True) (o.trail m) (o.perform m).machine :=
      carried_operationTrail inv.toKeptBetweenSteps (fun start _ => inv.step start) ok calm start
    exact carried.of_last fun _ _ => trivial

/-- An invariant holds of every machine that allowed operations lead to. -/
theorem of_reachable (inv : Invariant allowed P) {m : Machine} (h : Reachable allowed m) :
    P m := by
  induction h with
  | powerOn dialect limit random => exact inv.fresh dialect limit random Memory.initial
  | perform _ ok ih => exact inv.perform ok ih

end Invariant

/-! ### Passages

A property of single machines goes along a trail by `Carried`.  What compares the two ends of a
run with everything between them is proved by induction on a passage instead. -/

/-- The ways from one machine to another by steps and by what happens between steps, with the
machines before each of the steps. -/
inductive Passage (allowed : Operation → Prop) : Machine → List Machine → Machine → Prop where
  /-- The way from a machine to itself. -/
  | refl (m : Machine) : Passage allowed m [] m
  /-- A step comes first. -/
  | step {m last : Machine} {trail : List Machine}
      (rest : Passage allowed m.step.machine trail last) : Passage allowed m (m :: trail) last
  /-- The timers go down first. -/
  | countDown {m last : Machine} {trail : List Machine}
      (rest : Passage allowed m.countDown trail last) : Passage allowed m trail last
  /-- A frame is counted first. -/
  | frames {m last : Machine} {trail : List Machine} (count : Nat)
      (rest : Passage allowed { m with frames := count } trail last) :
      Passage allowed m trail last
  /-- Keys are pressed or released first. -/
  | keys {m last : Machine} {trail : List Machine} (keys : Keypad)
      (rest : Passage allowed { m with keys := keys } trail last) : Passage allowed m trail last
  /-- Disputed instructions are read in another way first. -/
  | dialect {m last : Machine} {trail : List Machine} (dialect : Dialect)
      (rest : Passage allowed { m with dialect := dialect } trail last) :
      Passage allowed m trail last
  /-- The timeline is to keep another number of instructions first, where that is allowed. -/
  | traceLimit {m last : Machine} {trail : List Machine} (limit : Nat)
      (ok : allowed (.setTraceLimit limit))
      (rest : Passage allowed { m with traceLimit := limit } trail last) :
      Passage allowed m trail last
  /-- A byte is put into memory first, where that is allowed. -/
  | poke {m last : Machine} {trail : List Machine} (address : Address) (value : UInt8)
      (ok : allowed (.poke address value))
      (rest : Passage allowed (m.poke address value) trail last) : Passage allowed m trail last

section Passage

variable {allowed : Operation → Prop}

/-- A passage may be followed by another one. -/
theorem Passage.append {a b c : Machine} {trail trail' : List Machine}
    (first : Passage allowed a trail b) (second : Passage allowed b trail' c) :
    Passage allowed a (trail ++ trail') c := by
  induction first with
  | refl => exact second
  | step _ ih => exact .step (ih second)
  | countDown _ ih => exact .countDown (ih second)
  | frames count _ ih => exact .frames count (ih second)
  | keys keys _ ih => exact .keys keys (ih second)
  | dialect dialect _ ih => exact .dialect dialect (ih second)
  | traceLimit limit ok _ ih => exact .traceLimit limit ok (ih second)
  | poke address value ok _ ih => exact .poke address value ok (ih second)

/-- Steps are a passage along their trail. -/
theorem passage_steps (count : Nat) (m : Machine) :
    Passage allowed m (trail count m) (steps count m).machine := by
  induction count generalizing m with
  | zero => exact .refl m
  | succ count ih =>
    rcases steps_succ count m with ⟨last, alone⟩ | ⟨_, _, onward, rest⟩
    · rw [last, alone]
      exact .step (.refl _)
    · rw [onward, rest]
      exact .step (ih m.step.machine)

/-- So is an operation that does not restart the machine. -/
theorem passage_operation {o : Operation} (ok : allowed o) (calm : ¬ o.Restarts) (m : Machine) :
    Passage allowed m (o.trail m) (o.perform m).machine := by
  cases o with
  | reset => exact absurd trivial calm
  | load program =>
    show Passage allowed m [] (m.load program).machine
    rw [machine_load_of_not_restarts calm]
    exact .refl m
  | key number down => exact .keys _ (.refl _)
  | step => exact .step (.refl _)
  | frame count =>
    show Passage allowed m (if m.isHalted then [] else trail count m) (m.runFrame count).machine
    cases halted : m.isHalted with
    | true =>
      obtain ⟨fault, halted⟩ := m.isHalted_iff.mp halted
      rw [runFrame_of_halted halted]
      exact .refl m
    | false =>
      show Passage allowed m (trail count m) (m.runFrame count).machine
      rw [runFrame_of_not_halted halted]
      have taken : Passage allowed m (trail count m) (steps count m).machine :=
        passage_steps count m
      split
      · exact taken
      · -- the end of the frame follows the steps and adds nothing to their trail
        rw [← List.append_nil (trail count m)]
        exact taken.append (.countDown (.frames _ (.refl _)))
  | countDown => exact .countDown (.refl _)
  | setDialect dialect => exact .dialect dialect (.refl _)
  | setTraceLimit limit => exact .traceLimit limit ok (.refl _)
  | poke address value => exact .poke address value ok (.refl _)

/-- So is a history without a restart. -/
theorem passage_history {history : List Operation} (ok : ∀ o ∈ history, allowed o)
    (calm : ∀ o ∈ history, ¬ o.Restarts) (m : Machine) :
    Passage allowed m (m.historyTrail history) (m.after history) := by
  induction history generalizing m with
  | nil => exact .refl m
  | cons o history ih =>
    have first := passage_operation (ok o (by simp)) (calm o (by simp)) m
    refine first.append (ih ?_ ?_ _)
    · intro p mem
      exact ok p (by simp [mem])
    · intro p mem
      exact calm p (by simp [mem])

end Passage

end Machine

end Chip8
