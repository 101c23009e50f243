import Chip8.Proofs.Dispatch
import Chip8.Proofs.Lockstep

namespace Chip8

/-!
# Dialects are confined to what is disputed

A dialect decides three points, and each of them is about two or one instructions only.  Two
machines that read them differently do the same until one of these instructions comes up with
operands for which the readings differ.

* `Variation.Concerns` — the words that a point of dispute is about.
* `Machine.ReadsAlike`, `Machine.Undisputed` — both readings of the word at the program counter
  come to the same, on one point and on all points on which two dialects differ.
* `Machine.execute_inDialect`, `Machine.step_inDialect` — an undisputed instruction and an
  undisputed step do the same in both dialects.
* `Machine.outcomes_inDialect` — so do histories all of whose steps are undisputed.
* `dialects_confined` — two machines with different dialects and a common history.
-/

/-- Whether a point of dispute is about a word: `8xy6` and `8xyE` shift, `Bnnn` is an offset jump,
and `Fx55` and `Fx65` transfer registers. -/
def Variation.Concerns : Variation → UInt16 → Prop
  | shift, w => w.toNat / 0x1000 = 0x8 ∧ w.toNat % 0x10 ∈ [0x6, 0xE]
  | jump, w => w.toNat / 0x1000 = 0xB
  | transfer, w => w.toNat / 0x1000 = 0xF ∧ w.toNat % 0x100 ∈ [0x55, 0x65]

instance (v : Variation) (w : UInt16) : Decidable (v.Concerns w) :=
  match v with
  | .shift => inferInstanceAs (Decidable (_ ∧ _))
  | .jump => inferInstanceAs (Decidable (_ = _))
  | .transfer => inferInstanceAs (Decidable (_ ∧ _))

/-- The point on which machines disagree about an instruction, if there is one. -/
def Instruction.disputed? : Instruction → Option Variation
  | shiftRight _ _ | shiftLeft _ _ => some .shift
  | jumpOffset _ => some .jump
  | store _ | load _ => some .transfer
  | _ => none

/-- Whether an operation changes how disputed instructions are read. -/
def Operation.setsDialect : Operation → Bool
  | setDialect _ => true
  | _ => false

namespace Machine

/-- The machine with disputed instructions read as a dialect has them. -/
def inDialect (m : Machine) (d : Dialect) : Machine := { m with dialect := d }

/-- Whether both readings of the word at the program counter come to the same, if a point is about
it: the two registers that a shift may read hold the same, and so do the two that an offset jump
may add.  A transfer leaves the index register in another place, so it never does. -/
def ReadsAlike (m : Machine) : Variation → Prop
  | .shift => m.reg (registerX (m.fetch m.pc)) = m.reg (registerY (m.fetch m.pc))
  | .jump => m.reg (registerX (m.fetch m.pc)) = m.reg 0
  | .transfer => False

/-- Whether the word at the program counter does the same in another dialect: where the dialects
differ on a point about it, both readings come to the same. -/
def Undisputed (m : Machine) (d : Dialect) : Prop :=
  ∀ v ∈ Variation.all, m.dialect.has v ≠ d.has v → v.Concerns (m.fetch m.pc) → m.ReadsAlike v

instance (m : Machine) (v : Variation) : Decidable (m.ReadsAlike v) :=
  match v with
  | .shift => inferInstanceAs (Decidable (_ = _))
  | .jump => inferInstanceAs (Decidable (_ = _))
  | .transfer => inferInstanceAs (Decidable False)

instance (m : Machine) (d : Dialect) : Decidable (m.Undisputed d) :=
  inferInstanceAs (Decidable (∀ v ∈ Variation.all, _))

end Machine

/-- The outcome with the machine in another dialect. -/
def Outcome.inDialect (o : Outcome) (d : Dialect) : Outcome :=
  { o with machine := o.machine.inDialect d }

/-- Disputed instructions are told by their words. -/
theorem concerns_of_disputed? {w : UInt16} {v : Variation} (h : (decode w).disputed? = some v) :
    v.Concerns w := by
  -- the digits are read off the writing of the instruction
  rw [← encode_decode w]
  generalize decode w = i at h ⊢
  cases i <;> simp only [Instruction.disputed?, reduceCtorEq, Option.some.injEq] at h
  all_goals subst h
  case shiftRight x y | shiftLeft x y =>
    have := x.isLt
    have := y.isLt
    show _ ∧ _
    rw [Instruction.encode, toNat_wordOfPair (by decide)]
    simp only [Fin.isValue, List.mem_cons]
    omega
  case jumpOffset base =>
    have := base.isLt
    show _ / _ = _
    rw [Instruction.encode, toNat_wordOfTarget (by decide)]
    omega
  case store x | load x =>
    have := x.isLt
    show _ ∧ _
    rw [Instruction.encode, toNat_wordOfByte (by decide)]
    simp only [UInt8.reduceToNat, List.mem_cons]
    omega

namespace Machine

variable {m : Machine} {d : Dialect}

/-! ### Operands -/

/-- A shift takes the same operand from two registers that hold the same. -/
theorem shiftOperand_inDialect {x y : Register}
    (h : m.dialect.has .shift ≠ d.has .shift → m.reg x = m.reg y) :
    (m.inDialect d).shiftOperand x y = m.shiftOperand x y := by
  show (if d.shiftReadsSecond then m.reg y else m.reg x) =
    if m.dialect.shiftReadsSecond then m.reg y else m.reg x
  by_cases same : m.dialect.shiftReadsSecond = d.shiftReadsSecond
  · rw [same]
  · rw [h same, ite_self, ite_self]

/-- An offset jump goes to the same address if the two registers that it may add hold the same. -/
theorem offsetTarget_inDialect {base : Address}
    (h : m.dialect.has .jump ≠ d.has .jump → m.reg (Fin.ofNat 16 (base.val / 256)) = m.reg 0) :
    (m.inDialect d).offsetTarget base = m.offsetTarget base := by
  have added (taken : Bool) : m.dialect.has .jump ≠ d.has .jump →
      m.reg (if taken then Fin.ofNat 16 (base.val / 256) else 0) = m.reg 0 := by
    intro differ
    cases taken with
    | true => exact h differ
    | false => rfl
  show Address.wrap (base.val +
      (m.reg (if d.jumpReadsNamed then Fin.ofNat 16 (base.val / 256) else 0)).toNat) =
    Address.wrap (base.val +
      (m.reg (if m.dialect.jumpReadsNamed then Fin.ofNat 16 (base.val / 256) else 0)).toNat)
  by_cases same : m.dialect.jumpReadsNamed = d.jumpReadsNamed
  · rw [same]
  · rw [added _ same, added _ same]

/-- A transfer leaves the index register in the same place in dialects that agree on it. -/
theorem indexAfterTransfer_inDialect (same : m.dialect.has .transfer = d.has .transfer)
    (x : Register) : (m.inDialect d).indexAfterTransfer x = m.indexAfterTransfer x := by
  show (if d.has .transfer then _ else _) = if m.dialect.has .transfer then _ else _
  rw [same]
  rfl

/-! ### Instructions -/

/-- A dialect has no part in whether an instruction is refused. -/
theorem refusal?_inDialect (m : Machine) (d : Dialect) (i : Instruction) :
    (m.inDialect d).refusal? i = m.refusal? i := by
  cases i <;> rfl

/-- Nor has it in what an instruction moves from and to memory. -/
theorem traffic_inDialect (m : Machine) (d : Dialect) (i : Instruction) :
    (m.inDialect d).traffic i = m.traffic i := by
  cases i <;> rfl

/-- Nor is it recorded. -/
theorem complete_inDialect (m : Machine) (d : Dialect) (pc word : UInt16) (form : Form)
    (traffic : List Transfer) :
    (m.inDialect d).complete pc word form traffic =
      (m.complete pc word form traffic).inDialect d := by
  have limit : (m.inDialect d).traceLimit = m.traceLimit := rfl
  unfold complete
  rw [limit]
  split
  · rfl
  · rfl

/-- An instruction about which two dialects have no dispute does the same in both. -/
theorem execute_inDialect (h : m.Undisputed d) :
    (m.inDialect d).execute (decode (m.fetch m.pc)) =
      (m.execute (decode (m.fetch m.pc))).inDialect d := by
  -- a point that is about the instruction is settled by what its registers hold
  have alike (v : Variation) (about : (decode (m.fetch m.pc)).disputed? = some v)
      (differ : m.dialect.has v ≠ d.has v) : m.ReadsAlike v :=
    h v (by cases v <;> decide) differ (concerns_of_disputed? about)
  have first := @registerX_of_first? (m.fetch m.pc)
  have second := @registerY_of_second? (m.fetch m.pc)
  generalize decode (m.fetch m.pc) = i at alike first second ⊢
  cases i
  case shiftRight x y | shiftLeft x y =>
    have operand : (m.inDialect d).shiftOperand x y = m.shiftOperand x y := by
      apply shiftOperand_inDialect
      intro differ
      have held : m.reg (registerX (m.fetch m.pc)) = m.reg (registerY (m.fetch m.pc)) :=
        alike .shift rfl differ
      rwa [first rfl, second rfl] at held
    rw [execute, operand]
    rfl
  case jumpOffset base =>
    have target : (m.inDialect d).offsetTarget base = m.offsetTarget base := by
      apply offsetTarget_inDialect
      intro differ
      have held : m.reg (registerX (m.fetch m.pc)) = m.reg 0 := alike .jump rfl differ
      rwa [first rfl] at held
    rw [execute, target]
    rfl
  case store x | load x =>
    have same : m.dialect.has .transfer = d.has .transfer := by
      by_cases same : m.dialect.has .transfer = d.has .transfer
      · exact same
      · exact absurd (alike .transfer rfl same) id
    rw [execute, indexAfterTransfer_inDialect same]
    rfl
  all_goals rfl

/-- So does the instruction at the program counter, and it is refused by both or by neither. -/
theorem dispatch_inDialect (h : m.Undisputed d) :
    (m.inDialect d).dispatch = m.dispatch.inDialect d := by
  have same : (m.inDialect d).refusal? (decode ((m.inDialect d).fetch (m.inDialect d).pc)) =
      m.refusal? (decode (m.fetch m.pc)) := refusal?_inDialect m d _
  cases reason : m.refusal? (decode (m.fetch m.pc)) with
  | some kind =>
    rw [reason] at same
    rw [dispatch_of_refused reason, dispatch_of_refused same]
    rfl
  | none =>
    rw [reason] at same
    have word : (m.inDialect d).fetch (m.inDialect d).pc = m.fetch m.pc := rfl
    have limit : (m.inDialect d).traceLimit = m.traceLimit := rfl
    rw [dispatch_of_accepted reason, dispatch_of_accepted same, word, limit,
      execute_inDialect h, complete_inDialect, traffic_inDialect]
    rfl

/-! ### Steps and frames -/

/-- A look at the keys does the same in every dialect. -/
theorem poll_inDialect (m : Machine) (d : Dialect) (register : Register) (seen : Keypad) :
    (m.inDialect d).poll register seen = (m.poll register seen).inDialect d := by
  have keys : (m.inDialect d).keys = m.keys := rfl
  unfold poll
  rw [keys]
  split
  · rfl
  · rfl

/-- Nothing but instructions can notice another dialect. -/
theorem neutral_inDialect (d : Dialect) : Neutral (·.inDialect d) where
  activity _ := rfl
  poll m := poll_inDialect m d
  frameEnd _ := rfl

/-- A step does the same in two dialects that have no dispute about it; a machine that does not
run is out of every dispute. -/
theorem step_inDialect (h : m.activity = .running → m.Undisputed d) :
    (m.inDialect d).step = m.step.inDialect d :=
  step_onMachine (neutral_inDialect d) fun running => dispatch_inDialect (h running)

/-- A history without a change of the dialect does the same in two dialects that have no dispute
about any of its steps. -/
theorem outcomes_inDialect {m : Machine} {d : Dialect} {history : List Operation}
    (keeps : ∀ o ∈ history, o.setsDialect = false)
    (h : ∀ b ∈ m.historyTrail history, b.activity = .running → b.Undisputed d) :
    (m.inDialect d).outcomes history = (m.outcomes history).map (·.inDialect d) ∧
      (m.inDialect d).after history = (m.after history).inDialect d := by
  apply outcomes_onMachine (neutral_inDialect d)
  · intro o mem none b
    cases o with
    | step | frame => cases none
    | load program =>
      show (b.inDialect d).load program = (b.load program).inDialect d
      unfold load
      split
      · rfl
      · rfl
    | setDialect dialect => cases keeps _ mem
    | reset | key | countDown | setTraceLimit | poke => rfl
  · intro b mem
    exact step_inDialect (h b mem)

end Machine

/-- Each point of a dialect is confined to its own instructions.  Take two machines that agree in
everything but their dialects, and a history that they have in common and that does not change the
dialects.  Along the run of the first machine, let every instruction `8xy6` and `8xyE` find the
same in both of its registers if the dialects differ on shifts, let every `Bnnn` find in the
register that its second digit names what is in `V0` if they differ on offset jumps, and let no
`Fx55` and no `Fx65` come up if they differ on transfers.  Then every operation reports the same
fault and announces the same for both machines, and leaves machines that again agree in everything
but their dialects. -/
theorem dialects_confined {m m' : Machine} (agree : m.inDialect m'.dialect = m')
    {history : List Operation} (keeps : ∀ o ∈ history, o.setsDialect = false)
    (undisputed : ∀ b ∈ m.historyTrail history, b.activity = .running →
      b.Undisputed m'.dialect) :
    m'.outcomes history = (m.outcomes history).map (·.inDialect m'.dialect) ∧
      m'.after history = (m.after history).inDialect m'.dialect := by
  have both := Machine.outcomes_inDialect keeps undisputed
  rw [agree] at both
  exact both

/-- A program that shifts twice where both registers hold the same, jumps by a register that holds
as much as `V0`, and then stores: a machine that reads shifts and offset jumps in the less common
way runs into the same fault. -/
theorem dialects_confined_equal_operands :
    let program := [0x60, 0x05, 0x62, 0x05, 0x80, 0x26, 0x62, 0x02, 0x82, 0x0E, 0x60, 0x04,
      0xB2, 0x0C, 0xFF, 0xFF, 0xF2, 0x55, 0x00, 0xEE]
    let m := (Machine.powerOn {} 4 default).after [.load program]
    let d : Dialect := { shiftReadsSecond := true, jumpReadsNamed := true }
    let m' := m.inDialect d
    let history : List Operation := [.frame 3, .key 5 true, .step, .countDown, .frame 9]
    ((m.after history).fault? = some ⟨.stackUnderflow, 0x00EE, 0x212⟩ ∧
        (m.after history).memory.read 0x002 = 4) ∧
      m'.outcomes history = (m.outcomes history).map (·.inDialect d) ∧
      m'.after history = (m.after history).inDialect d := by
  intro program m d m' history
  have facts : ((m.after history).fault? = some ⟨.stackUnderflow, 0x00EE, 0x212⟩ ∧
      (m.after history).memory.read 0x002 = 4) ∧
      (∀ o ∈ history, o.setsDialect = false) ∧
      ∀ b ∈ m.historyTrail history, b.activity = .running → b.Undisputed d := by
    decide +kernel
  obtain ⟨halts, keeps, undisputed⟩ := facts
  exact ⟨halts, @dialects_confined m m' rfl history keeps undisputed⟩

end Chip8
