import Chip8.Proofs.Dispatch
import Chip8.Proofs.Lockstep
import Mathlib.Data.List.Basic

namespace Chip8

/-!
# Random bytes

One instruction takes a byte from the source of random bytes, and nothing else does.  So the bytes
of a source are used one after the other, and those that have not been used make no difference.

* `Machine.takesByte` — the next step takes a byte; `Machine.random_step` and
  `Machine.step_of_takesByte` say what such a step does, and that no other step takes any.
* `Machine.InOrder` — along a trail, the source moves on by one byte at each step that takes one;
  `Machine.inOrder_history` says so of every history, restarts and loads included.
* `Machine.step_withStream`, `Machine.outcomes_withStream` — steps do the same with another stream
  that has the same byte, and so do histories with another stream that has the same bytes as far as
  they are taken.
* `random_bytes_in_order` — all of that from the installation of a source on.
-/

/-- The source after some more of its bytes have been taken. -/
def RandomSource.past (r : RandomSource) (count : Nat) : RandomSource :=
  { r with taken := r.taken + count }

/-- The words that take a random byte are those that begin with `C`. -/
theorem form_decode_eq_random_iff (w : UInt16) :
    (decode w).form = .random ↔ w.toNat / 0x1000 = 0xC := by
  constructor
  · intro h
    rw [← encode_decode w]
    generalize decode w = i at h ⊢
    cases i
    case random x mask => exact group_wordOfByte (by decide) x mask
    all_goals cases h
  · intro group
    simp only [decode, group]
    rfl

namespace Machine

/-- Whether the next step takes a random byte: the machine runs, and the word at its program counter
begins with `C`. -/
def takesByte (m : Machine) : Bool :=
  m.activity == .running && (m.fetch m.pc).toNat / 0x1000 == 0xC

/-- The machine with a source of its own, of which nothing has been taken. -/
def install (m : Machine) (stream : Nat → UInt8) : Machine := { m with random := ⟨stream, 0⟩ }

/-- The machine with another stream of random bytes, and as many of them taken. -/
def withStream (m : Machine) (stream : Nat → UInt8) : Machine :=
  { m with random := { m.random with stream := stream } }

variable {m : Machine} {stream : Nat → UInt8}

/-! ### Single steps -/

theorem takesByte_iff :
    m.takesByte = true ↔ m.activity = .running ∧ (decode (m.fetch m.pc)).form = .random := by
  simp [takesByte, form_decode_eq_random_iff]

theorem takesByte_of_not_running (h : m.activity ≠ .running) : m.takesByte = false := by
  simp [takesByte, h]

/-- An instruction takes a byte if it is the one for random bytes. -/
theorem random_execute (m : Machine) (i : Instruction) :
    (m.execute i).random = m.random.past (if i.form = .random then 1 else 0) := by
  cases i <;> rfl

/-- A step takes a byte from the source, or it leaves the source alone. -/
theorem random_step (m : Machine) :
    m.step.machine.random = m.random.past (if m.takesByte then 1 else 0) := by
  have case := m.step_cases
  generalize m.step = o at case ⊢
  cases case with
  | refused running reason =>
    -- the instruction for random bytes is never refused
    have other : (decode (m.fetch m.pc)).form ≠ .random := by
      generalize decode (m.fetch m.pc) = i at reason
      cases i
      case random => cases reason
      all_goals exact nofun
    rw [if_neg fun takes => other (takesByte_iff.mp takes).2]
    rfl
  | executed running accepted traffic =>
    obtain ⟨timeline, recorded⟩ := (m.execute (decode (m.fetch m.pc))).exists_timeline_complete
      m.pc (m.fetch m.pc) (decode (m.fetch m.pc)).form traffic
    have taken := m.random_execute (decode (m.fetch m.pc))
    simp only [takesByte_iff, running, true_and]
    rw [recorded]
    exact taken
  | resumed waiting | parked waiting =>
    rw [takesByte_of_not_running (by rw [waiting]; exact nofun)]
    rfl
  | stuck halted =>
    rw [takesByte_of_not_running (by rw [halted]; exact nofun)]
    rfl

/-- A step that takes a byte puts what the mask leaves of it into the register that the word
names, and reports no fault. -/
theorem step_of_takesByte (takes : m.takesByte = true) :
    m.step.fault? = none ∧ m.step.machine.reg (registerX (m.fetch m.pc)) =
      m.random.next &&& lowByte (m.fetch m.pc) := by
  simp only [takesByte, Bool.and_eq_true, beq_iff_eq] at takes
  obtain ⟨running, group⟩ := takes
  have word : decode (m.fetch m.pc) =
      .random (registerX (m.fetch m.pc)) (lowByte (m.fetch m.pc)) := by
    simp only [decode, group]
  obtain ⟨timeline, after⟩ := exists_timeline_step running word rfl
  rw [after]
  exact ⟨rfl, m.next.reg_setReg_self _ _⟩

/-! ### Bytes in order -/

/-- Along a trail, the source moves on by one byte at each step that takes one, from a given source
to that of the machine at the end. -/
def InOrder (source : RandomSource) : List Machine → Machine → Prop
  | [], last => last.random = source
  | m :: rest, last =>
    m.random = source ∧ InOrder (source.past (if m.takesByte then 1 else 0)) rest last

section InOrder

variable {source : RandomSource} {trail trail' before rest : List Machine} {b last : Machine}

/-- A trail may be followed by another one. -/
theorem InOrder.append (first : InOrder source trail m) (second : InOrder m.random trail' last) :
    InOrder source (trail ++ trail') last := by
  induction trail generalizing source with
  | nil =>
    have reached : m.random = source := first
    rw [reached] at second
    exact second
  | cons a trail ih => exact ⟨first.1, ih first.2⟩

/-- At its end, as many bytes have been taken as there are steps that take one. -/
theorem InOrder.random_last (h : InOrder source trail last) :
    last.random = source.past (trail.countP takesByte) := by
  induction trail generalizing source with
  | nil => exact h
  | cons a trail ih =>
    have later := ih h.2
    rw [later, List.countP_cons, Nat.add_comm]
    simp only [RandomSource.past, Nat.add_assoc]

/-- At each of its machines, as many bytes have been taken as steps before it take. -/
theorem InOrder.random_at (h : InOrder source (before ++ b :: rest) last) :
    b.random = source.past (before.countP takesByte) := by
  have upTo : InOrder source before b := by
    induction before generalizing source with
    | nil => exact h.1
    | cons a before ih => exact ⟨h.1, ih h.2⟩
  exact upTo.random_last

/-- What happens between steps takes no bytes. -/
theorem inOrder_of_passage {allowed : Operation → Prop} (h : Passage allowed m trail last) :
    InOrder m.random trail last := by
  induction h with
  | refl => rfl
  | @step m last trail _ ih =>
    rw [random_step] at ih
    exact ⟨rfl, ih⟩
  | countDown _ ih | frames _ _ ih | keys _ _ ih | dialect _ _ ih => exact ih
  | traceLimit _ _ _ ih | poke _ _ _ _ ih => exact ih

/-- No operation takes bytes but by its steps; a restart has none, and leaves the source alone. -/
theorem inOrder_operation (o : Operation) (m : Machine) :
    InOrder m.random (o.trail m) (o.perform m).machine := by
  by_cases restarts : o.Restarts
  · have none : o.trail m = [] := by
      cases o with
      | step | frame => exact absurd restarts id
      | _ => rfl
    obtain ⟨memory, fresh⟩ := exists_memory_of_restarts restarts m
    rw [none, fresh]
    rfl
  · have run : Passage (fun _ => True) m (o.trail m) (o.perform m).machine :=
      passage_operation trivial restarts m
    exact inOrder_of_passage run

/-- So the bytes are taken in order along every history. -/
theorem inOrder_history (m : Machine) (history : List Operation) :
    InOrder m.random (m.historyTrail history) (m.after history) := by
  induction history generalizing m with
  | nil => rfl
  | cons o history ih => exact (inOrder_operation o m).append (ih (o.perform m).machine)

end InOrder

/-! ### Other streams -/

theorem refusal?_withStream (m : Machine) (stream : Nat → UInt8) (i : Instruction) :
    (m.withStream stream).refusal? i = m.refusal? i := by
  cases i <;> rfl

theorem traffic_withStream (m : Machine) (stream : Nat → UInt8) (i : Instruction) :
    (m.withStream stream).traffic i = m.traffic i := by
  cases i <;> rfl

theorem complete_withStream (m : Machine) (stream : Nat → UInt8) (pc word : UInt16) (form : Form)
    (traffic : List Transfer) :
    (m.withStream stream).complete pc word form traffic =
      (m.complete pc word form traffic).withStream stream := by
  have limit : (m.withStream stream).traceLimit = m.traceLimit := rfl
  unfold complete
  rw [limit]
  split
  · rfl
  · rfl

/-- An instruction does the same with another stream if it takes the same byte, or none. -/
theorem execute_withStream {i : Instruction}
    (same : i.form = .random → stream m.random.taken = m.random.next) :
    (m.withStream stream).execute i = (m.execute i).withStream stream := by
  cases i
  case random x mask =>
    have byte : (m.withStream stream).random.next = m.random.next := same rfl
    rw [execute, byte]
    rfl
  all_goals rfl

/-- So does the instruction at the program counter, and it is refused with both or with neither. -/
theorem dispatch_withStream (running : m.activity = .running)
    (same : m.takesByte = true → stream m.random.taken = m.random.next) :
    (m.withStream stream).dispatch = m.dispatch.onMachine (·.withStream stream) := by
  have refusal := m.refusal?_withStream stream (decode (m.fetch m.pc))
  cases reason : m.refusal? (decode (m.fetch m.pc)) with
  | some kind =>
    rw [dispatch_of_refused reason, dispatch_of_refused (refusal.trans reason)]
    rfl
  | none =>
    have word : (m.withStream stream).fetch (m.withStream stream).pc = m.fetch m.pc := rfl
    have limit : (m.withStream stream).traceLimit = m.traceLimit := rfl
    have effect := execute_withStream (m := m) (i := decode (m.fetch m.pc)) fun random =>
      same (takesByte_iff.mpr ⟨running, random⟩)
    rw [dispatch_of_accepted reason, dispatch_of_accepted (refusal.trans reason), word, limit,
      effect, complete_withStream, traffic_withStream]
    rfl

theorem poll_withStream (m : Machine) (stream : Nat → UInt8) (register : Register)
    (seen : Keypad) :
    (m.withStream stream).poll register seen = (m.poll register seen).withStream stream := by
  have keys : (m.withStream stream).keys = m.keys := rfl
  unfold poll
  rw [keys]
  split
  · rfl
  · rfl

/-- Nothing but instructions can notice another stream. -/
theorem neutral_withStream (stream : Nat → UInt8) : Neutral (·.withStream stream) where
  activity _ := rfl
  poll m := m.poll_withStream stream
  frameEnd _ := rfl

/-- A step does the same with another stream if it takes the same byte, or none. -/
theorem step_withStream (same : m.takesByte = true → stream m.random.taken = m.random.next) :
    (m.withStream stream).step = m.step.onMachine (·.withStream stream) :=
  step_onMachine (neutral_withStream stream) fun running => dispatch_withStream running same

/-- A history does the same with another stream that has the same bytes, as far as they are
taken. -/
theorem outcomes_withStream {history : List Operation} {count : Nat}
    (enough : (m.historyTrail history).countP takesByte ≤ count)
    (same : ∀ k < count, stream (m.random.taken + k) = m.random.stream (m.random.taken + k)) :
    (m.withStream stream).outcomes history =
        (m.outcomes history).map (·.onMachine (·.withStream stream)) ∧
      (m.withStream stream).after history = (m.after history).withStream stream := by
  apply outcomes_onMachine (neutral_withStream stream)
  · intro o _ none b
    cases o with
    | step | frame => cases none
    | load program =>
      show (b.withStream stream).load program = (b.load program).onMachine _
      unfold load
      split
      · rfl
      · rfl
    | _ => rfl
  · intro b mem
    apply step_withStream
    intro takes
    -- a byte that is taken is one of the first, since the steps before it have taken the others
    obtain ⟨before, rest, cut⟩ := List.append_of_mem mem
    have order := m.inOrder_history history
    rw [cut] at order enough
    have place := order.random_at
    have inside : before.countP takesByte < count := by
      rw [List.countP_append, List.countP_cons, takes, if_pos rfl] at enough
      omega
    rw [place]
    exact same _ inside

end Machine

/-- Let a machine be given a source, and run through any history.  A step that takes a byte gets
the one whose number is that of such steps before it, across restarts and programs loaded or
refused; what the mask of its word leaves of the byte is in the register that the word names, and
the source is at the next byte.  No other step, and no operation beside its steps, moves the source.
So another source whose bytes are the same, as far as they are taken, makes no difference: every
operation leaves the same behind, but for the source. -/
theorem random_bytes_in_order (m : Machine) (stream : Nat → UInt8) (history : List Operation) :
    let fresh := m.install stream
    let trail := fresh.historyTrail history
    (∀ before b rest, trail = before ++ b :: rest →
      let w := b.fetch b.pc
      let n := b.step.machine
      let j := before.countP Machine.takesByte
      b.random = ⟨stream, j⟩ ∧
      (b.takesByte = true → b.step.fault? = none ∧
        n.reg (registerX w) = stream j &&& lowByte w ∧ n.random = ⟨stream, j + 1⟩) ∧
      (b.takesByte = false → n.random = ⟨stream, j⟩)) ∧
    (fresh.after history).random = ⟨stream, trail.countP Machine.takesByte⟩ ∧
    ∀ (stream' : Nat → UInt8) (count : Nat), trail.countP Machine.takesByte ≤ count →
      (∀ k < count, stream' k = stream k) →
        (m.install stream').outcomes history =
          (fresh.outcomes history).map
            (fun o => { o with machine := o.machine.withStream stream' }) ∧
        (m.install stream').after history = (fresh.after history).withStream stream' := by
  intro fresh trail
  have order : Machine.InOrder ⟨stream, 0⟩ trail (fresh.after history) :=
    fresh.inOrder_history history
  have past (k : Nat) : (⟨stream, 0⟩ : RandomSource).past k = ⟨stream, k⟩ := by
    simp [RandomSource.past]
  refine ⟨?_, ?_, ?_⟩
  · intro before b rest cut w n j
    rw [cut] at order
    have here : b.random = ⟨stream, j⟩ := order.random_at.trans (past j)
    have moves := b.random_step
    rw [here] at moves
    refine ⟨here, ?_, ?_⟩
    · intro takes
      obtain ⟨sound, register⟩ := Machine.step_of_takesByte takes
      rw [here] at register
      rw [takes] at moves
      exact ⟨sound, register, moves⟩
    · intro takesNone
      rw [takesNone] at moves
      exact moves
  · exact order.random_last.trans (past _)
  · intro stream' count enough same
    refine Machine.outcomes_withStream (m := fresh) enough ?_
    intro k inside
    have place : fresh.random.taken + k = k := Nat.zero_add k
    rw [place]
    exact same k inside

/-- A program keeps the low half of a byte and then a whole one.  It goes on after a program that is
too large, and begins anew when it is loaded once more, so that three bytes are taken.  Another
source has just these three in common. -/
theorem random_bytes_in_order_three :
    let stream : Nat → UInt8 := fun k => if k < 3 then 0xA7 + k.toUInt8 else 0
    let stream' : Nat → UInt8 := fun k => 0xA7 + k.toUInt8
    let program : List UInt8 := [0xC1, 0x0F, 0xC2, 0xFF]
    let history : List Operation := [.load program, .step, .load (List.replicate 3585 0), .frame 1,
      .load program, .step]
    let m := Machine.powerOn {} 0 default
    let trail := (m.install stream).historyTrail history
    let last := (m.install stream).after history
    (∃ before b, trail = before ++ [b] ∧ b.fetch b.pc = 0xC10F ∧
      b.step.machine.reg 1 = stream 2 &&& 0x0F) ∧
    last.random = ⟨stream, 3⟩ ∧ (m.install stream').after history = last.withStream stream' := by
  intro stream stream' program history m trail last
  obtain ⟨each, taken, alike⟩ := random_bytes_in_order m stream history
  have facts : trail.length = 3 ∧ trail.countP Machine.takesByte = 3 ∧
      (∀ b ∈ trail[2]?, b.fetch b.pc = 0xC10F) ∧ ∀ k < 3, stream' k = stream k := by
    decide +kernel
  obtain ⟨three, all, word, same⟩ := facts
  obtain ⟨m₀, m₁, m₂, list⟩ := List.length_eq_three.mp three
  have takes : ∀ b ∈ trail, b.takesByte = true := List.countP_eq_length.mp (all.trans three.symm)
  rw [list] at takes word
  have two : [m₀, m₁].countP Machine.takesByte = 2 := by
    rw [List.countP_eq_length.mpr fun b mem => takes b (List.mem_append_left [m₂] mem)]
    rfl
  have wordOfLast : m₂.fetch m₂.pc = 0xC10F := word m₂ rfl
  have registers := ((each [m₀, m₁] m₂ [] list).2.1 (takes m₂ (by simp))).2.1
  rw [two, wordOfLast] at registers
  obtain ⟨-, ends⟩ := alike stream' 3 (Nat.le_of_eq all) same
  refine ⟨⟨[m₀, m₁], m₂, list, wordOfLast, registers⟩, ?_, ends⟩
  rw [taken, ← all]

end Chip8
