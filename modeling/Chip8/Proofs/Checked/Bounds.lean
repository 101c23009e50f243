import Chip8.Proofs.Checked.Execution
import Chip8.Proofs.Range

namespace Chip8

/-!
# No access is out of bounds

Every number that an operation accesses a store with is in range, so the checked operations
never fail and do what the unchecked ones do.

* `Machine.execute?_eq` — an instruction that is not refused finds everything it accesses.
* `Machine.step?_eq`, `Machine.runFrame?_eq` — so do steps and frames.
* `Operation.perform?_eq` — and so do operations.
* `reachable_in_bounds` — in a machine that can be reached, addresses are in range and the
  next operation finds everything it accesses.
-/

/-! ### Numbers that are masked -/

theorem digitX_eq (w : UInt16) : digitX w = (registerX w).val := by
  have mask := Nat.and_two_pow_sub_one_eq_mod (w.toNat / 256) 4
  simpa [digitX, Nat.shiftRight_eq_div_pow] using mask

theorem digitY_eq (w : UInt16) : digitY w = (registerY w).val := by
  have mask := Nat.and_two_pow_sub_one_eq_mod (w.toNat / 16) 4
  simpa [digitY, Nat.shiftRight_eq_div_pow] using mask

/-- The last digit of a byte names a key. -/
theorem toNat_and_fifteen (value : UInt8) :
    (value &&& 0x0F).toNat = (Fin.ofNat 16 value.toNat).val := by
  have mask := Nat.and_two_pow_sub_one_eq_mod value.toNat 4
  simpa using mask

theorem Memory.initial?_eq : Memory.initial? = some Memory.initial := by
  -- the glyphs end long before the memory does
  refine Bank.writeEach?_eq _ fontBase font (fun k => fontBase + k) fun k h => ?_
  have fits : fontBase + font.length ≤ 4096 := by decide
  omega

namespace Machine

/-! ### Parts of instructions -/

@[simp] theorem reg?_val (m : Machine) (x : Register) : m.reg? x.val = some (m.reg x) :=
  Bank.read?_val _ _

@[simp] theorem setReg?_val (m : Machine) (x : Register) (value : UInt8) :
    m.setReg? x.val value = some (m.setReg x value) := by
  simp only [setReg?, Bank.write?_val, Option.bind_eq_bind, Option.bind_some]
  rfl

@[simp] theorem setReg?_flag (m : Machine) (value : UInt8) :
    m.setReg? 0xF value = some (m.setReg Register.flag value) :=
  m.setReg?_val Register.flag value

@[simp] theorem setRegAndFlag?_val (m : Machine) (x : Register) (value flag : UInt8) :
    m.setRegAndFlag? x.val value flag = some (m.setRegAndFlag x value flag) := by
  simp only [setRegAndFlag?, setReg?_val, setReg?_flag, Option.bind_eq_bind, Option.bind_some]
  rfl

/-- The index register may point anywhere: masked cells are there. -/
@[simp] theorem bytesAtIndex?_eq (m : Machine) (count : Nat) :
    m.bytesAtIndex? count = some (m.memory.readFrom m.index.toNat count) :=
  Bank.readEach?_eq _ _ _ _ fun k _ => cellNumber_add m.index k

@[simp] theorem writeAtIndex?_eq (m : Machine) (values : List UInt8) :
    m.writeAtIndex? values = some (m.memory.writeFrom m.index.toNat values) :=
  Bank.writeEach?_eq _ _ _ _ fun k _ => cellNumber_add m.index k

/-- Registers up to one of them are all there to be read. -/
theorem readEach?_registers (m : Machine) (x : Register) :
    m.registers.readEach? (List.range (x.val + 1)) = some (m.registersUpTo x) := by
  have all := Bank.readEach?_eq m.registers 0 (x.val + 1) (fun k => k) fun k h => by omega
  rwa [List.map_id'] at all

/-- Registers up to one of them are all there to be written. -/
theorem writeEach?_registers (m : Machine) (x : Register) (bytes : List UInt8)
    (h : bytes.length = x.val + 1) :
    m.registers.writeEach? (bytes.zipIdx.map fun (value, k) => (k, value)) =
      some (m.registers.writeFrom 0 bytes) :=
  Bank.writeEach?_eq _ _ _ (fun k => k) fun k hk => by omega

/-! ### Instructions -/

/-- An instruction that is not refused finds everything it accesses, given its registers. -/
theorem executeOn?_eq {m : Machine} {x y : Register} {i : Instruction}
    (accepted : m.refusal? i = none) (first : ∀ x', i.first? = some x' → x = x')
    (second : ∀ y', i.second? = some y' → y = y') :
    m.executeOn? x.val (m.reg x) (m.reg y) i = some (m.execute i) := by
  -- where the registers are known to be the ones named, what is left is that each store is
  -- large enough for what the instruction does with it
  cases i
  case native | data | clear | jump | setIndex => rfl
  case ret =>
    unfold executeOn?
    rw [CallStack.pop?_of_pos (m.refusal?_ret_eq_none_iff.mp accepted)]
    rfl
  case call =>
    unfold executeOn?
    rw [CallStack.push?_of_lt ((m.refusal?_call_eq_none_iff _).mp accepted)]
    rfl
  case jumpOffset base =>
    -- the named register is the one that the second digit of the target names
    obtain rfl := first _ rfl
    unfold executeOn? execute offsetTarget
    cases m.dialect.jumpReadsNamed
    · have zero : m.reg? 0 = some (m.reg 0) := m.reg?_val 0
      simp only [zero]
      rfl
    · rfl
  case skipIfByte | skipUnlessByte | awaitKey | setDelay | setSound | addIndex =>
    obtain rfl := first _ rfl
    rfl
  case skipIfEqual | skipUnlessEqual =>
    obtain rfl := first _ rfl
    obtain rfl := second _ rfl
    rfl
  case setByte | addByte | readDelay =>
    obtain rfl := first _ rfl
    exact setReg?_val ..
  case copy | or | and | xor =>
    obtain rfl := first _ rfl
    obtain rfl := second _ rfl
    exact setReg?_val ..
  case add | sub | subFrom | shiftRight | shiftLeft =>
    obtain rfl := first _ rfl
    obtain rfl := second _ rfl
    exact setRegAndFlag?_val ..
  case random =>
    obtain rfl := first _ rfl
    unfold executeOn?
    simp only [setReg?_val]
    rfl
  case draw =>
    obtain rfl := first _ rfl
    obtain rfl := second _ rfl
    unfold executeOn?
    simp only [bytesAtIndex?_eq, Display.draw?_eq, setReg?_flag, Option.bind_eq_bind,
      Option.bind_some]
    rfl
  case skipIfKey | skipUnlessKey =>
    obtain rfl := first _ rfl
    unfold executeOn?
    simp only [toNat_and_fifteen, Keypad.isDown?_val]
    rfl
  case glyph =>
    obtain rfl := first _ rfl
    unfold executeOn?
    simp only [toNat_and_fifteen]
    rfl
  case decimal =>
    obtain rfl := first _ rfl
    unfold executeOn?
    simp only [writeAtIndex?_eq]
    rfl
  case store =>
    obtain rfl := first _ rfl
    unfold executeOn?
    simp only [readEach?_registers, writeAtIndex?_eq, Option.bind_eq_bind, Option.bind_some]
    rfl
  case load x' =>
    obtain rfl := first _ rfl
    have length : (m.memory.readFrom m.index.toNat (x.val + 1)).length = x.val + 1 :=
      Bank.length_readFrom ..
    unfold executeOn?
    simp only [bytesAtIndex?_eq, Option.bind_eq_bind, Option.bind_some,
      writeEach?_registers m x _ length]
    rfl

/-- The instruction of a word finds everything it accesses, unless it is refused. -/
theorem execute?_eq {m : Machine} {w : UInt16} (accepted : m.refusal? (decode w) = none) :
    m.execute? w = some (m.execute (decode w)) := by
  unfold execute?
  rw [digitX_eq, digitY_eq, reg?_val, reg?_val]
  exact executeOn?_eq accepted (fun _ => registerX_of_first?) fun _ => registerY_of_second?

/-! ### Steps and frames -/

theorem fetch?_eq (m : Machine) (address : UInt16) :
    m.fetch? address = some (m.fetch address) := by
  have high : cellNumber address = (Address.wrap address.toNat).val := cellNumber_eq address
  have low : cellNumber (address + 1) = (Address.wrap (address.toNat + 1)).val :=
    cellNumber_add address 1
  unfold fetch?
  rw [high, low, Bank.read?_val, Bank.read?_val]
  rfl

/-- Looking at the keys by number finds the lowest key that is pressed. -/
theorem findM?_pressed (now before : Keypad) :
    ((List.range 16).findM? fun number => do
      let down ← now.isDown? number
      let old ← before.isDown? number
      some (down && !old)) = some ((now.firstPressed? before).map Fin.val) := by
  have keys : List.range 16 = (List.finRange 16).map Fin.val := by decide
  rw [keys]
  unfold Keypad.firstPressed?
  -- both searches go through the same list, whichever list that is
  induction List.finRange 16 with
  | nil => rfl
  | cons key rest ih =>
    rw [List.map_cons, List.findM?, ih, List.find?_cons]
    simp only [Keypad.isDown?_val, Option.bind_eq_bind, Option.bind_some]
    cases now.isDown key && !before.isDown key <;> rfl

theorem poll?_eq (m : Machine) (register : Register) (seen : Keypad) :
    m.poll? register seen = some (m.poll register seen) := by
  unfold poll? poll
  rw [findM?_pressed]
  cases m.keys.firstPressed? seen with
  | none => rfl
  | some key =>
    simp only [Option.map_some, Option.bind_eq_bind, Option.bind_some, setReg?_val]

theorem dispatch?_eq (m : Machine) : m.dispatch? = some m.dispatch := by
  unfold dispatch? dispatch
  rw [fetch?_eq]
  simp only [Option.bind_eq_bind, Option.bind_some]
  cases accepted : m.refusal? (decode (m.fetch m.pc)) with
  | some kind => rfl
  | none => simp only [execute?_eq accepted, Option.bind_some]

/-- A step finds everything it accesses. -/
theorem step?_eq (m : Machine) : m.step? = some m.step := by
  unfold step? step
  cases m.activity with
  | running => exact m.dispatch?_eq
  | awaitingKey register seen => simp only [poll?_eq, Option.bind_eq_bind, Option.bind_some]
  | halted fault => rfl

theorem steps?_eq (count : Nat) (m : Machine) : steps? count m = some (steps count m) := by
  induction count generalizing m with
  | zero => rfl
  | succ count ih =>
    unfold steps? steps
    rw [step?_eq]
    simp only [Option.bind_eq_bind, Option.bind_some, ih]
    split <;> rfl

/-- A frame finds everything it accesses. -/
theorem runFrame?_eq (m : Machine) (stepsPerFrame : Nat) :
    m.runFrame? stepsPerFrame = some (m.runFrame stepsPerFrame) := by
  unfold runFrame? runFrame
  cases m.activity with
  | halted fault => rfl
  | running | awaitingKey =>
    cases faulted : (steps stepsPerFrame m).fault? with
    | none | some =>
      simp only [steps?_eq, Option.bind_eq_bind, Option.bind_some, faulted]

/-! ### Operations -/

theorem reset?_eq (m : Machine) : m.reset? = some m.reset := by
  unfold reset?
  rw [Memory.initial?_eq]
  rfl

/-- A program that fits finds cells for all of its bytes. -/
theorem load?_eq (m : Machine) (program : List UInt8) :
    m.load? program = some (m.load program) := by
  unfold load? load
  split
  · next fits =>
    -- the last byte of the largest program lies in the last cell
    have room : programStart + programCapacity = 4096 := by decide
    have cells := Bank.writeEach?_eq m.reset.memory programStart program
      (fun k => programStart + k) fun k h => by omega
    rw [reset?_eq]
    simp only [Option.bind_eq_bind, Option.bind_some, cells]
    rfl
  · rfl

theorem withKey?_eq (m : Machine) (number : Nat) (down : Bool) :
    m.withKey? number down = some (m.withKey number down) := by
  unfold withKey? withKey
  split
  · next none =>
    have noKey : ¬ number < 16 := by omega
    simp only [Keypad.set, noKey, dif_neg, not_false_eq_true]
  · next one =>
    have key : number < 16 := by omega
    rw [Keypad.set?_of_lt _ key]
    rfl

theorem poke?_eq (m : Machine) (address : Address) (value : UInt8) :
    m.poke? address value = some (m.poke address value) := by
  unfold poke?
  rw [Bank.write?_val]
  rfl

end Machine

/-- An operation finds everything it accesses, and so does what it is meant to do. -/
theorem Operation.perform?_eq (o : Operation) (m : Machine) :
    o.perform? m = some (o.perform m) := by
  unfold perform? perform
  cases o with
  | reset => simp only [Machine.reset?_eq, Option.bind_eq_bind, Option.bind_some]
  | load program => exact m.load?_eq program
  | key number down => simp only [Machine.withKey?_eq, Option.bind_eq_bind, Option.bind_some]
  | step => exact m.step?_eq
  | frame steps => exact m.runFrame?_eq steps
  | countDown | setDialect | setTraceLimit => rfl
  | poke address value => simp only [Machine.poke?_eq, Option.bind_eq_bind, Option.bind_some]

/-! ### Machines that can be reached -/

/-- In a machine that can be reached, whatever its program is and has become, the program
counter, the depth of the stack, the return addresses and the register that waits for a key
are in range, and no access of the operation that comes next is out of bounds. -/
theorem reachable_in_bounds {m : Machine} (h : Machine.Reachable (fun _ => True) m) :
    m.pc.toNat ≤ 0xFFF ∧ m.calls.depth ≤ 16 ∧
      (∀ i : Fin 16, i.val < m.calls.depth → (m.calls.slot i).toNat ≤ 0xFFF) ∧
      (∀ register seen, m.activity = .awaitingKey register seen → register.val ≤ 15) ∧
      ∀ o : Operation, o.perform? m = some (o.perform m) := by
  have range := h.inRange
  refine ⟨?_, m.calls.depth_le, ?_, ?_, ?_⟩
  · have := range.pc
    omega
  · intro i taken
    have := range.slot i taken
    omega
  · intro register _ _
    omega
  · intro o
    exact o.perform?_eq m

/-- A program that calls and then waits for a key leaves a taken slot and a waiting
register. -/
theorem reachable_in_bounds_in_subroutine :
    let m := (Machine.powerOn {} 0 default).after
      [.load [0x22, 0x04, 0x00, 0x00, 0xF3, 0x0A], .step, .step]
    (m.calls.depth = 1 ∧ m.activity = .awaitingKey 3 .released) ∧
      m.pc.toNat ≤ 0xFFF ∧ m.calls.depth ≤ 16 ∧
        (∀ i : Fin 16, i.val < m.calls.depth → (m.calls.slot i).toNat ≤ 0xFFF) ∧
        (∀ register seen, m.activity = .awaitingKey register seen → register.val ≤ 15) ∧
        ∀ o : Operation, o.perform? m = some (o.perform m) := by
  intro m
  have reached : Machine.Reachable (fun _ => True) m :=
    (Machine.Reachable.powerOn {} 0 default).after _ fun _ _ => trivial
  exact ⟨by decide +kernel, reachable_in_bounds reached⟩

end Chip8
