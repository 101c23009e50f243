import Chip8.Proofs.Histories
import Chip8.Proofs.Traffic
import Mathlib.Data.List.DropRight

namespace Chip8

/-!
# The timeline is a log

From a restart on, the timeline is the end of a log that has one entry for each instruction
that was carried out, and none for a fault or a look at the keys.

* `Machine.executes`, `Machine.logEntry` — whether a step carries an instruction out, and what
  is to be said of it.
* `Machine.RecordedAs`, `Machine.recordedAs_logEntry` — what an entry promises, and that it
  keeps it.
* `Machine.logged_of_passage` — the timeline after a run is the end of what it was followed by
  the log of the run.
* `Machine.memory_of_passage` — the log of a run takes memory before it to memory after it.
* `timeline_logs_execution` — all of that from a restart on.
-/

/-! ### The end of a list -/

section End

variable {α : Type} (l l' : List α) (n : Nat)

/-- What is cut off at the front first would have been cut off later anyway. -/
theorem rtake_rtake_append : (l.rtake n ++ l').rtake n = (l ++ l').rtake n := by
  simp only [List.rtake_eq_reverse_take_reverse, List.reverse_append, List.reverse_reverse]
  rw [List.take_append, List.take_append, List.take_take, Nat.min_eq_left (Nat.sub_le ..)]

theorem length_rtake : (l.rtake n).length = min n l.length := by
  rw [List.rtake, List.length_drop]
  omega

/-- No more can be kept than there is. -/
theorem rtake_min_length : l.rtake (min n l.length) = l.rtake n := by
  rw [List.rtake, List.rtake]
  congr 1
  omega

theorem rtake_of_length_le (h : l.length ≤ n) : l.rtake n = l := by
  rw [List.rtake, Nat.sub_eq_zero_of_le h, List.drop_zero]

end End

namespace Machine

/-! ### Entries -/

/-- Whether the step of a machine carries an instruction out. -/
def executes (m : Machine) : Bool := m.activity == .running && m.step.fault?.isNone

/-- What is to be said of the instruction that the step of a machine carries out. -/
def logEntry (m : Machine) : TraceEntry where
  cycle := m.cycles
  pc := m.pc
  word := m.fetch m.pc
  form := (decode (m.fetch m.pc)).form
  index := m.step.machine.index
  depth := m.step.machine.calls.depth
  registers := m.step.machine.registers
  phase := m.step.machine.activity.phase
  traffic := m.traffic (decode (m.fetch m.pc))

/-- The entries for the machines of a trail whose steps carry instructions out. -/
def log (trail : List Machine) : List TraceEntry := (trail.filter executes).map logEntry

/-- An entry tells the truth about the step of a machine, and all of it: where the instruction
lay, which one it was, what it left behind, and every byte that went out of memory or into it, no
more and no fewer. -/
structure RecordedAs (m : Machine) (entry : TraceEntry) : Prop where
  /-- The number is that of the instruction. -/
  cycle : entry.cycle = m.cycles
  /-- The program counter is the one before the step. -/
  pc : entry.pc = m.pc
  /-- The word is the one that lay there in memory before the step. -/
  word : entry.word = m.fetch m.pc
  /-- The form is the one that the word decodes to. -/
  form : entry.form = (decode entry.word).form
  /-- The index register is the one after the step. -/
  index : entry.index = m.step.machine.index
  /-- So is the depth of the stack, -/
  depth : entry.depth = m.step.machine.calls.depth
  /-- so are the registers, -/
  registers : entry.registers = m.step.machine.registers
  /-- and so is the run state. -/
  phase : entry.phase = m.step.machine.activity.phase
  /-- All traffic carries the number of the instruction and names cells. -/
  numbered : ∀ t ∈ entry.traffic, t.cycle = entry.cycle ∧ t.address.val ≤ 0xFFF
  /-- It begins with the two bytes of the instruction, round the end of memory. -/
  fetched : ∃ high low rest, entry.traffic = high :: low :: rest ∧
    (high.direction = .read ∧ high.address.val = entry.pc.toNat % 0x1000) ∧
    (low.direction = .read ∧ low.address.val = (entry.pc.toNat + 1) % 0x1000)
  /-- After them come the bytes that the instruction works on, each of them once and in order, from
  the cell on that the index register named before the step: a sprite's rows and the bytes for
  registers are read, digits and the bytes of registers are written, and nothing else is moved. -/
  worked : (entry.traffic.drop 2).map Transfer.account =
    (decode entry.word).workFrom m.index.toNat
  /-- Bytes that were read are those that memory held when they were read. -/
  supplied : m.memory.Supplies entry.traffic
  /-- Bytes that were written, in order, make memory after the step. -/
  replayed : m.memory.replay entry.traffic = m.step.machine.memory

variable {m last : Machine} {trail : List Machine}

theorem executes_iff :
    m.executes = true ↔
      m.activity = .running ∧ m.refusal? (decode (m.fetch m.pc)) = none := by
  unfold executes
  rw [Bool.and_eq_true, beq_iff_eq, Option.isNone_iff_eq_none]
  refine and_congr_right ?_
  intro running
  refine ⟨refusal?_eq_none_of_calm running, ?_⟩
  intro accepted
  rw [step_of_running running]
  exact fault?_dispatch_of_accepted accepted

/-- A step that carries an instruction out records it. -/
theorem step_of_executes (h : m.executes = true) :
    m.step =
      { machine :=
          (m.execute (decode (m.fetch m.pc))).complete m.pc (m.fetch m.pc)
            (decode (m.fetch m.pc)).form
            (if m.traceLimit = 0 then [] else m.traffic (decode (m.fetch m.pc))) } := by
  obtain ⟨running, accepted⟩ := executes_iff.mp h
  rw [step_of_running running, dispatch_of_accepted accepted]

/-- A step that carries no instruction out records nothing and writes nothing to memory. -/
theorem step_of_not_executes (h : m.executes = false) :
    m.step.machine.cycles = m.cycles ∧ m.step.machine.timeline = m.timeline ∧
      m.step.machine.traceLimit = m.traceLimit ∧ m.step.machine.memory = m.memory := by
  have case := m.step_cases
  generalize m.step = o at case ⊢
  cases case with
  | executed running accepted =>
    rw [executes_iff.mpr ⟨running, accepted⟩] at h
    cases h
  | refused | resumed | parked | stuck => exact ⟨rfl, rfl, rfl, rfl⟩

/-- The entry of an instruction tells the truth about it. -/
theorem recordedAs_logEntry (h : m.executes = true) : m.RecordedAs m.logEntry where
  cycle := rfl
  pc := rfl
  word := rfl
  form := rfl
  index := rfl
  depth := rfl
  registers := rfl
  phase := rfl
  numbered t mem := ⟨m.cycle_traffic _ t mem, Nat.le_of_lt_succ t.address.isLt⟩
  fetched := ⟨_, _, _, rfl, ⟨rfl, rfl⟩, ⟨rfl, rfl⟩⟩
  worked := m.account_operandTraffic _
  supplied := m.supplies_traffic _
  replayed := by
    rw [step_of_executes h, memory_complete]
    exact m.replay_traffic _

/-! ### Runs -/

/-- What the last machine of a run has counted and recorded, told from the first one and the
log of the run. -/
structure Logged (m : Machine) (trail : List Machine) (last : Machine) : Prop where
  /-- As much is to be recorded as before. -/
  traceLimit : last.traceLimit = m.traceLimit
  /-- Every entry of the log has been counted. -/
  cycles : last.cycles = m.cycles + (log trail).length
  /-- The entries are numbered in order. -/
  numbers : (log trail).map TraceEntry.cycle = List.range' m.cycles (log trail).length
  /-- The timeline keeps what has been recorded last. -/
  timeline : m.timeline.size ≤ m.traceLimit →
    last.timeline.toList = (m.timeline.toList ++ log trail).rtake m.traceLimit

theorem log_cons (m : Machine) (trail : List Machine) :
    log (m :: trail) = if m.executes then m.logEntry :: log trail else log trail := by
  unfold log
  rw [List.filter_cons]
  split
  · rfl
  · rfl

/-- The timeline after an instruction ends with its entry. -/
theorem toList_timeline_step (h : m.executes = true) (fits : m.timeline.size ≤ m.traceLimit) :
    m.step.machine.timeline.toList =
      (m.timeline.toList ++ [m.logEntry]).rtake m.traceLimit := by
  obtain ⟨cycles, timeline, limit⟩ := m.record_execute (decode (m.fetch m.pc))
  by_cases none : m.traceLimit = 0
  · -- where nothing is kept, nothing has been kept before
    have empty : m.timeline.toList = [] := by
      apply List.eq_nil_of_length_eq_zero
      rw [Timeline.length_toList]
      omega
    rw [step_of_executes h, complete, limit, if_pos none, none, List.rtake_zero]
    show (m.execute _).timeline.toList = []
    rw [timeline, empty]
  · have entry : (m.execute (decode (m.fetch m.pc))).traceEntry m.pc (m.fetch m.pc)
        (decode (m.fetch m.pc)).form (m.traffic (decode (m.fetch m.pc))) = m.logEntry := by
      unfold logEntry traceEntry
      rw [step_of_executes h, cycles]
      simp only [index_complete, calls_complete, registers_complete, activity_complete]
    rw [step_of_executes h, complete, limit, if_neg none, if_neg none, entry]
    show ((m.execute _).timeline.record m.traceLimit m.logEntry).toList = _
    rw [timeline, Timeline.toList_record, List.rtake, List.length_append]
    rfl

/-- A run is logged, as long as nobody changes how much is to be recorded. -/
theorem logged_of_passage
    (h : Passage (fun o => ∀ limit, o ≠ .setTraceLimit limit) m trail last) :
    Logged m trail last := by
  induction h with
  | refl m =>
    refine ⟨rfl, rfl, rfl, ?_⟩
    intro fits
    rw [log, List.filter_nil, List.map_nil, List.append_nil, rtake_of_length_le]
    rw [Timeline.length_toList]
    exact fits
  | @step m last trail rest ih =>
    obtain ⟨limit, cycles, numbers, timeline⟩ := ih
    cases executes : m.executes with
    | false =>
      obtain ⟨counted, recorded, limit', _⟩ := step_of_not_executes executes
      rw [counted] at cycles numbers
      rw [recorded] at timeline
      rw [limit'] at limit timeline
      have same : log (m :: trail) = log trail := by
        rw [log_cons, executes]
        rfl
      refine ⟨limit, ?_, ?_, ?_⟩
      · rw [same]
        exact cycles
      · rw [same]
        exact numbers
      · rw [same]
        exact timeline
    | true =>
      have counted : m.step.machine.cycles = m.cycles + 1 := by
        rw [step_of_executes executes, cycles_complete, (m.record_execute _).1]
      have limit' : m.step.machine.traceLimit = m.traceLimit := by
        rw [step_of_executes executes, traceLimit_complete, (m.record_execute _).2.2]
      rw [counted] at cycles numbers
      rw [limit'] at limit timeline
      have more : log (m :: trail) = m.logEntry :: log trail := by
        rw [log_cons, executes]
        rfl
      refine ⟨limit, ?_, ?_, ?_⟩
      · rw [more, List.length_cons]
        omega
      · rw [more, List.map_cons, numbers, List.length_cons, List.range'_succ]
        rfl
      · intro fits
        have recorded := toList_timeline_step executes fits
        have fits' : m.step.machine.timeline.size ≤ m.traceLimit := by
          rw [← Timeline.length_toList, recorded, length_rtake]
          exact Nat.min_le_left ..
        rw [timeline fits', recorded, rtake_rtake_append, more, List.append_assoc]
        rfl
  | countDown _ ih => exact ⟨ih.traceLimit, ih.cycles, ih.numbers, ih.timeline⟩
  | frames _ _ ih => exact ⟨ih.traceLimit, ih.cycles, ih.numbers, ih.timeline⟩
  | keys _ _ ih => exact ⟨ih.traceLimit, ih.cycles, ih.numbers, ih.timeline⟩
  | dialect _ _ ih => exact ⟨ih.traceLimit, ih.cycles, ih.numbers, ih.timeline⟩
  | traceLimit limit ok => exact absurd rfl (ok limit)
  | poke _ _ _ _ ih => exact ⟨ih.traceLimit, ih.cycles, ih.numbers, ih.timeline⟩

/-- From a machine that has counted and recorded nothing, the timeline is the end of the log. -/
theorem Logged.of_fresh (h : Logged m trail last) (zero : m.cycles = 0)
    (empty : m.timeline = .empty) :
    (log trail).length = last.cycles ∧
      last.timeline.toList = (log trail).rtake (min m.traceLimit last.cycles) := by
  have count : last.cycles = (log trail).length := by
    rw [h.cycles, zero, Nat.zero_add]
  refine ⟨count.symm, ?_⟩
  have fits : m.timeline.size ≤ m.traceLimit := by
    rw [empty]
    exact Nat.zero_le _
  rw [h.timeline fits, empty, Timeline.toList_empty, List.nil_append, count, rtake_min_length]

/-- The end of a log is numbered up to its last entry. -/
theorem Logged.numbers_rtake (h : Logged m trail last) (zero : m.cycles = 0) (count : Nat)
    (some : count ≤ (log trail).length) :
    ((log trail).rtake count).map TraceEntry.cycle =
      List.range' ((log trail).length - count) count := by
  have numbers := h.numbers
  rw [zero] at numbers
  rw [List.rtake, List.map_drop, numbers, List.drop_range', Nat.zero_add, Nat.mul_one,
    Nat.sub_sub_self some]

/-- The log of a run takes memory before it to memory after it, as long as nobody writes to
memory from outside. -/
theorem memory_of_passage
    (h : Passage (fun o => ∀ address value, o ≠ .poke address value) m trail last) :
    m.memory.replay ((log trail).flatMap TraceEntry.traffic) = last.memory := by
  induction h with
  | refl m => rfl
  | @step m last trail rest ih =>
    cases executes : m.executes with
    | false =>
      obtain ⟨_, _, _, same⟩ := step_of_not_executes executes
      rw [log_cons, executes]
      rw [same] at ih
      exact ih
    | true =>
      have here := (recordedAs_logEntry executes).replayed
      rw [log_cons, executes, if_pos rfl, List.flatMap_cons, Bank.replay_append, here]
      exact ih
  | countDown _ ih => exact ih
  | frames _ _ ih => exact ih
  | keys _ _ ih => exact ih
  | dialect _ _ ih => exact ih
  | traceLimit _ _ _ ih => exact ih
  | poke address value ok => exact absurd rfl (ok address value)

end Machine

/-- The timeline is the exact end of a faithful log.  Take any history without a restart after
a restart, in which nobody changes how much is to be recorded, and the machines in it whose
steps carried an instruction out: there are as many as have been counted.  The timeline holds
the entries of the last of them, as many as are to be recorded or all, with consecutive
numbers; every entry tells the truth about its instruction and leaves out no byte that it moved,
read or written; and as long as all entries are kept and nobody writes to memory from outside, they
take memory after the restart to memory now. -/
theorem timeline_logs_execution (m : Machine) {start : Operation} (restarts : start.Restarts)
    {history : List Operation} (calm : ∀ o ∈ history, ¬ o.Restarts)
    (constant : ∀ limit, .setTraceLimit limit ∉ history) :
    let fresh := (start.perform m).machine
    let last := m.after (start :: history)
    let executed := (fresh.historyTrail history).filter Machine.executes
    let kept := min m.traceLimit last.cycles
    executed.length = last.cycles ∧
      last.timeline.toList = (executed.map Machine.logEntry).rtake kept ∧
      last.timeline.size = kept ∧
      last.timeline.toList.map TraceEntry.cycle = List.range' (last.cycles - kept) kept ∧
      (∀ b ∈ executed, b.RecordedAs b.logEntry) ∧
      ((∀ address value, .poke address value ∉ history) → last.cycles ≤ m.traceLimit →
        fresh.memory.replay (last.timeline.toList.flatMap TraceEntry.traffic) =
          last.memory) := by
  intro fresh last executed kept
  obtain ⟨memory, restarted⟩ := Machine.exists_memory_of_restarts restarts m
  have zero : fresh.cycles = 0 := congrArg Machine.cycles restarted
  have empty : fresh.timeline = .empty := congrArg Machine.timeline restarted
  have limit : fresh.traceLimit = m.traceLimit := by
    have same := congrArg Machine.traceLimit restarted
    exact same
  have logged : Machine.Logged fresh (fresh.historyTrail history) last := by
    refine Machine.logged_of_passage (Machine.passage_history ?_ calm fresh)
    rintro o mem limit rfl
    exact constant limit mem
  obtain ⟨count, timeline⟩ := logged.of_fresh zero empty
  rw [limit] at timeline
  have numbers := logged.numbers_rtake zero kept (by omega)
  refine ⟨?_, timeline, ?_, ?_, ?_, ?_⟩
  · rw [← count, Machine.log, List.length_map]
  · rw [← Timeline.length_toList, timeline, length_rtake, count]
    exact Nat.min_eq_left (Nat.min_le_right ..)
  · rw [timeline, numbers, count]
  · intro b mem
    exact Machine.recordedAs_logEntry (List.mem_filter.mp mem).2
  · intro untouched all
    have kept_all : min m.traceLimit last.cycles = last.cycles := Nat.min_eq_right all
    rw [timeline, kept_all, rtake_of_length_le _ _ (Nat.le_of_eq count)]
    refine Machine.memory_of_passage (Machine.passage_history ?_ calm fresh)
    rintro o mem address value rfl
    exact untouched address value mem

/-- A program that writes the digits of a byte over itself and then faults: of its three
instructions a short timeline keeps the last two, and a long one tells what is in memory. -/
theorem timeline_logs_execution_digits :
    let start : Operation := .load [0x60, 0x7B, 0xA2, 0x04, 0xF0, 0x33, 0x00, 0x00]
    let history : List Operation := [.step, .key 3 true, .frame 9]
    let short := (Machine.powerOn {} 2 default).after (start :: history)
    let long := (Machine.powerOn {} 9 default).after (start :: history)
    let fresh := (start.perform (Machine.powerOn {} 9 default)).machine
    (short.timeline.size = 2 ∧ short.timeline.toList.map TraceEntry.cycle = [1, 2]) ∧
      (long.cycles = 3 ∧ long.memory.read 0x204 = 1 ∧
        fresh.memory.replay (long.timeline.toList.flatMap TraceEntry.traffic) = long.memory) := by
  intro start history short long fresh
  have counts : short.cycles = 3 ∧ long.cycles = 3 ∧ long.memory.read 0x204 = 1 := by
    decide +kernel
  obtain ⟨shortCount, longCount, digit⟩ := counts
  have restarts : start.Restarts := by decide
  have calm : ∀ o ∈ history, ¬ o.Restarts := by decide
  have constant : ∀ limit, .setTraceLimit limit ∉ history := by simp [history]
  have untouched : ∀ address value, .poke address value ∉ history := by simp [history]
  obtain ⟨_, _, size, numbers, _⟩ :=
    timeline_logs_execution (.powerOn {} 2 default) restarts calm constant
  obtain ⟨_, _, _, _, _, memory⟩ :=
    timeline_logs_execution (.powerOn {} 9 default) restarts calm constant
  refine ⟨⟨?_, ?_⟩, longCount, digit, ?_⟩
  · exact size.trans (by rw [shortCount]; rfl)
  · exact numbers.trans (by rw [shortCount]; rfl)
  · exact memory untouched (by rw [longCount]; decide)

end Chip8
